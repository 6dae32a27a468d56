import Aether.Profile.Codec

/-! What of a profile reaches the VPN service.

`delivered p` is the profile `startTunnel` is called with after `connect p`. The
codec writes thirty-six of the fifty fields: a delivered profile is the sent one
with the other fourteen set to their defaults (`delivered_eq_carried`), so
the trip is the identity exactly on profiles that leave those fields alone
(`delivered_eq_iff`). -/
namespace Aether.Profile
open Kotlin Codec

/-- The profile `startTunnel` receives for the intent `connect` sends. -/
def delivered (p : ConnectionProfile) : ConnectionProfile := decode (some (encode p))

/-! ### Profiles -/

/-- Every string field. -/
def ConnectionProfile.strings (p : ConnectionProfile) : List String :=
  [p.manualPeer, p.manualRange, p.dnsServers, p.team, p.accessClientId, p.accessClientSecret,
    p.accessEmail, p.accessToken, p.routeBlock, p.routeDirect, p.fragmentSize, p.fragmentDelay,
    p.tlsGroups, p.upstreamProxy, p.psiphonProtocols, p.psiphonDns]

/-- A package list of non-blank, trimmed entries without a comma. -/
def PlainApps (apps : List String) : Prop :=
  ∀ a ∈ apps, isBlank a = false ∧ trim a = a ∧ ',' ∉ a.toList

/-- A profile of one-line strings and plain package lists. -/
structure Plain (p : ConnectionProfile) : Prop where
  strings : ∀ s ∈ p.strings, OneLine s.toList
  splitApps : PlainApps p.splitApps
  blockedApps : PlainApps p.blockedApps

/-- No package name holds a line break. -/
def AppsOneLine (p : ConnectionProfile) : Prop :=
  (∀ a ∈ p.splitApps, OneLine a.toList) ∧ ∀ a ∈ p.blockedApps, OneLine a.toList

/-- The fields the codec does not write have their default values. -/
structure UnwrittenDefault (p : ConnectionProfile) : Prop where
  dnsServers : p.dnsServers = ""
  team : p.team = ""
  teamAuth : p.teamAuth = .off
  accessClientId : p.accessClientId = ""
  accessClientSecret : p.accessClientSecret = ""
  accessEmail : p.accessEmail = ""
  accessToken : p.accessToken = ""
  gateway : p.gateway = false
  routeBlock : p.routeBlock = ""
  routeDirect : p.routeDirect = ""
  upstreamProxy : p.upstreamProxy = ""
  routeSniff : p.routeSniff = true
  routeSniffMs : p.routeSniffMs = 0
  autoReprovision : p.autoReprovision = true

/-- The profile with every field the codec does not write at its default. -/
def carried (p : ConnectionProfile) : ConnectionProfile :=
  { p with
    dnsServers := "", team := "", teamAuth := .off, accessClientId := "", accessClientSecret := ""
    accessEmail := "", accessToken := "", gateway := false, routeBlock := "", routeDirect := ""
    upstreamProxy := "", routeSniff := true, routeSniffMs := 0, autoReprovision := true }

theorem carried_eq_self {p : ConnectionProfile} (h : UnwrittenDefault p) : carried p = p := by
  obtain ⟨h1, h2, h3, h4, h5, h6, h7, h8, h9, h10, h11, h12, h13, h14⟩ := h
  cases p
  simp only at h1 h2 h3 h4 h5 h6 h7 h8 h9 h10 h11 h12 h13 h14
  subst h1 h2 h3 h4 h5 h6 h7 h8 h9 h10 h11 h12 h13 h14
  rfl

/-! ### What any text decodes to -/

/-- Whatever the text, no field outside the codec is ever set. -/
theorem decode_unwritten (raw : Option String) : UnwrittenDefault (decode raw) := by
  have hdefault : UnwrittenDefault {} := ⟨rfl, rfl, rfl, rfl, rfl, rfl, rfl, rfl, rfl, rfl, rfl, rfl, rfl, rfl⟩
  unfold decode
  split
  · exact hdefault
  · split
    · exact hdefault
    · split
      · unfold decodeLegacy
        split
        · split
          · exact ⟨rfl, rfl, rfl, rfl, rfl, rfl, rfl, rfl, rfl, rfl, rfl, rfl, rfl, rfl⟩
          · exact hdefault
        · exact hdefault
      · exact ⟨rfl, rfl, rfl, rfl, rfl, rfl, rfl, rfl, rfl, rfl, rfl, rfl, rfl, rfl⟩

theorem parseLine_oneLine {line : List Char} (h : OneLine line) {e : String × String}
    (he : parseLine line = some e) : OneLine e.2.toList := by
  unfold parseLine at he
  split at he
  · cases he
  · cases he
  · rename_i c value hdrop _
    obtain rfl := Option.some.inj he
    rw [String.toList_ofList]
    apply h.sublist
    have hsuffix : (c :: value).Sublist line := hdrop ▸ (List.dropWhile_suffix _).sublist
    exact (List.sublist_cons_self c value).trans hsuffix

/-- The values of a text are values of its lines: none holds a break. -/
theorem toMap_oneLine (raw : List Char) (key value : String)
    (h : toMap ((lineSequence raw).filterMap parseLine) key = some value) :
    OneLine value.toList := by
  simp only [toMap, Option.map_eq_some_iff] at h
  obtain ⟨e, he, rfl⟩ := h
  have hmem := List.mem_of_find?_eq_some he
  rw [List.mem_reverse, List.mem_filterMap] at hmem
  obtain ⟨line, hline, hparse⟩ := hmem
  exact parseLine_oneLine (lineSequence_oneLine raw line hline) hparse

theorem appList_oneLine {value : String} (h : OneLine value.toList) :
    ∀ a ∈ appList value, OneLine a.toList := by
  intro a ha
  simp only [appList, List.mem_filter, List.mem_map, split] at ha
  obtain ⟨⟨b, ⟨t, ht, rfl⟩, rfl⟩, _⟩ := ha
  apply h.sublist
  refine (trim_sublist _).trans ?_
  rw [String.toList_ofList]
  exact splitOn_sublist ',' value.toList t ht

/-- Whatever the text, the package names read from it hold no break. -/
theorem decode_appsOneLine (raw : Option String) : AppsOneLine (decode raw) := by
  have hdefault : AppsOneLine {} := by simp [AppsOneLine]
  unfold decode
  split
  · exact hdefault
  · rename_i raw
    split
    · exact hdefault
    · split
      · unfold decodeLegacy
        split
        · split
          · simp [AppsOneLine]
          · exact hdefault
        · exact hdefault
      · have happs : ∀ key, ∀ a ∈ ((toMap ((lineSequence raw.toList).filterMap parseLine) key).map
            appList).getD [], OneLine a.toList := by
          intro key a ha
          cases hv : toMap ((lineSequence raw.toList).filterMap parseLine) key with
          | none => simp [hv] at ha
          | some value =>
            rw [hv] at ha
            exact appList_oneLine (toMap_oneLine raw.toList key value hv) a ha
        exact ⟨happs "splitApps", happs "blockedApps"⟩

/-! ### What a written profile decodes to -/

theorem parseLine_entryLine (e : String × String) (hne : e.1.toList ≠ []) (hkey : '=' ∉ e.1.toList) :
    parseLine (entryLine e).toList = some e := by
  have hall : ∀ c ∈ e.1.toList, (c != '=') = true := by
    intro c hc
    simp only [bne_iff_ne, ne_eq]
    rintro rfl
    exact hkey hc
  have htext : (entryLine e).toList = e.1.toList ++ '=' :: e.2.toList := by
    simp [entryLine, String.toList_append]
  have htake : (entryLine e).toList.takeWhile (· != '=') = e.1.toList := by
    rw [htext, List.takeWhile_append_of_pos hall]
    simp
  have hdrop : (entryLine e).toList.dropWhile (· != '=') = '=' :: e.2.toList := by
    rw [htext, List.dropWhile_append_of_pos hall]
    simp
  obtain ⟨c, cs, hcs⟩ := List.exists_cons_of_ne_nil hne
  rw [parseLine, htake, hdrop, hcs]
  simp only [← hcs, String.ofList_toList]

/-- With distinct keys, every pair is found under its key. -/
theorem toMap_of_mem {pairs : List (String × String)} (hnodup : (pairs.map Prod.fst).Nodup)
    {e : String × String} (he : e ∈ pairs) : toMap pairs e.1 = some e.2 := by
  have hfind : pairs.reverse.find? (fun b => b.1 == e.1) = some e := by
    apply find?_key Prod.fst (List.mem_reverse.mpr he)
    rw [List.map_reverse]
    exact (List.reverse_perm _).nodup_iff.mpr hnodup
  rw [toMap, hfind]
  rfl

theorem entries_keys_nodup (p : ConnectionProfile) : ((entries p).map Prod.fst).Nodup := by
  simp only [entries, List.map_cons, List.map_nil]
  decide

/-- Every key is a non-empty word without `=` or a break. -/
theorem entries_keys (p : ConnectionProfile) : ∀ e ∈ entries p,
    e.1.toList ≠ [] ∧ '=' ∉ e.1.toList ∧ OneLine e.1.toList := by
  have hkeys : ∀ k ∈ (entries p).map Prod.fst, k.toList ≠ [] ∧ '=' ∉ k.toList ∧ OneLine k.toList := by
    simp only [entries, List.map_cons, List.map_nil]
    decide
  exact fun e he => hkeys e.1 (List.mem_map_of_mem he)

theorem oneLine_name {α : Type} [EnumClass α] (a : α) : OneLine (name a).toList :=
  EnumClass.name_oneLine a (EnumClass.mem_entries a)

theorem oneLine_boolToString (b : Bool) : OneLine (boolToString b).toList := by
  cases b <;> decide

theorem oneLine_intToString (n : Int32) : OneLine (intToString n).toList := by
  have hdigits : OneLine (Nat.toDigits 10 n.toInt.natAbs) := by
    intro c hc
    have hdigit := isDigit_bounds (Nat.isDigit_of_mem_toDigits (by decide) (by decide) hc)
    simp only [isLineBreak, Bool.or_eq_false_iff, beq_eq_false_iff_ne]
    constructor
    · rintro rfl
      exact absurd hdigit.1 (by decide)
    · rintro rfl
      exact absurd hdigit.1 (by decide)
  rw [intToString, String.toList_ofList]
  split
  · exact OneLine.append (s := ['-']) (by decide) hdigits
  · exact hdigits

theorem oneLine_joinToString {apps : List String} (h : ∀ a ∈ apps, OneLine a.toList) :
    OneLine (joinToString ',' apps).toList := by
  rw [joinToString, String.toList_ofList]
  induction apps with
  | nil => simp [OneLine]
  | cons a rest ih =>
    have ha := h a (List.mem_cons_self ..)
    cases rest with
    | nil => simpa using ha
    | cons b rest' =>
      have htail := ih fun c hc => h c (List.mem_cons_of_mem _ hc)
      rw [List.map_cons, List.map_cons, List.intercalate_cons_cons]
      exact (ha.append (by decide)).append htail

theorem notMem_of_oneLine {s : List Char} (h : OneLine s) : '\n' ∉ s ∧ '\r' ∉ s :=
  ⟨fun hc => absurd (h _ hc) (by decide), fun hc => absurd (h _ hc) (by decide)⟩

theorem psiphonProtocols_written {s : String} (h : OneLine s.toList) :
    remove '\r' (remove '\n' s) = s := by
  rw [remove_of_notMem (notMem_of_oneLine h).1, remove_of_notMem (notMem_of_oneLine h).2]

/-- Every written value stays on its line. -/
theorem entries_oneLine (p : ConnectionProfile) (h : ∀ s ∈ p.strings, OneLine s.toList)
    (happs : AppsOneLine p) : ∀ e ∈ entries p, OneLine e.2.toList := by
  simp only [ConnectionProfile.strings, List.forall_mem_cons, List.not_mem_nil, false_imp_iff,
    implies_true, and_true] at h
  obtain ⟨hpeer, hrange, _, _, _, _, _, _, _, _, hsize, hdelay, htls, _, hprot, hdns⟩ := h
  simp only [entries, List.forall_mem_cons, List.not_mem_nil, false_imp_iff, implies_true,
    oneLine_name, oneLine_boolToString, oneLine_intToString, oneLine_joinToString happs.1,
    oneLine_joinToString happs.2, psiphonProtocols_written hprot, hpeer, hrange, hsize, hdelay, htls,
    hprot, hdns, and_self]

theorem appList_joinToString {apps : List String} (h : PlainApps apps) :
    appList (joinToString ',' apps) = apps := by
  by_cases hne : apps = []
  · subst hne
    decide
  · rw [appList, split_joinToString ',' apps (fun a ha => (h a ha).2.2) hne]
    have htrim : apps.map trim = apps := by
      conv_rhs => rw [← List.map_id apps]
      exact List.map_congr_left fun a ha => (h a ha).2.1
    rw [htrim, List.filter_eq_self]
    intro a ha
    have hblank := (h a ha).1
    simp only [decide_eq_true_eq]
    rintro rfl
    exact absurd hblank (by decide)

/-- A map that holds every written pair is the carried profile. -/
theorem fromMap_entries (p : ConnectionProfile) (hp : Plain p) (map : String → Option String)
    (h : ∀ e ∈ entries p, map e.1 = some e.2) : fromMap map = carried p := by
  have hprot : OneLine p.psiphonProtocols.toList := hp.strings _ (by simp [ConnectionProfile.strings])
  simp only [entries, List.forall_mem_cons, List.not_mem_nil, false_imp_iff, implies_true, and_true,
    psiphonProtocols_written hprot] at h
  simp only [fromMap, h, Option.bind_some, Option.map_some, Option.getD_some, enumValueOf_name,
    toBooleanStrictOrNull_toString, toIntOrNull_toString, appList_joinToString hp.splitApps,
    appList_joinToString hp.blockedApps, carried]

/-- A plain profile arrives with the fields the codec does not write at their defaults. -/
theorem delivered_eq_carried (p : ConnectionProfile) (hp : Plain p) (happs : AppsOneLine p) :
    delivered p = carried p := by
  have hlines : ∀ l ∈ ((entries p).map entryLine).map String.toList, OneLine l := by
    intro l hl
    simp only [List.mem_map] at hl
    obtain ⟨_, ⟨e, he, rfl⟩, rfl⟩ := hl
    rw [entryLine, String.toList_append, String.toList_append]
    exact ((entries_keys p e he).2.2.append (by decide)).append (entries_oneLine p hp.strings happs e he)
  have hpairs : (lineSequence (encode p).toList).filterMap parseLine = entries p := by
    rw [encode, joinToString, String.toList_ofList, lineSequence_joinLines hlines (by simp [entries]),
      List.map_map, List.filterMap_map]
    conv_rhs => rw [← List.filterMap_some (l := entries p)]
    apply List.filterMap_congr
    intro e he
    exact parseLine_entryLine e (entries_keys p e he).1 (entries_keys p e he).2.1
  have hchar : ∀ c ∈ "protocol=".toList, c ∈ (encode p).toList := by
    intro c hc
    rw [encode, joinToString, String.toList_ofList]
    apply (sublist_intercalate ['\n'] (t := (entryLine ("protocol", name p.protocol)).toList)
      (List.mem_map_of_mem (List.mem_map_of_mem (by simp [entries])))).mem
    rw [entryLine, String.toList_append, String.toList_append, ← String.toList_append]
    exact List.mem_append_left _ hc
  have hblank : isBlank (encode p) = false := by
    apply List.all_eq_false.mpr
    exact ⟨'p', hchar 'p' (by decide), by decide⟩
  have heq : ¬ ('=' ∉ (encode p).toList ∧ '|' ∈ (encode p).toList) := fun h => h.1 (hchar '=' (by decide))
  rw [delivered, decode]
  simp only [hblank, Bool.false_eq_true, if_false, heq, hpairs]
  exact fromMap_entries p hp _ fun e he => toMap_of_mem (entries_keys_nodup p) he

/-- **The trip is the identity exactly on profiles that leave the fields the codec
does not write at their defaults** and whose package names hold no break. -/
theorem delivered_eq_iff (p : ConnectionProfile) (hp : Plain p) :
    delivered p = p ↔ UnwrittenDefault p ∧ AppsOneLine p := by
  constructor
  · intro h
    rw [← h]
    exact ⟨decode_unwritten _, decode_appsOneLine _⟩
  · rintro ⟨hunwritten, happs⟩
    rw [delivered_eq_carried p hp happs, carried_eq_self hunwritten]

/-- Values with `=` and `|` and two package lists make the trip. -/
theorem delivered_eq_iff_sample :
    let p : ConnectionProfile :=
      { protocol := .wireguard, manualPeer := "162.159.192.1:2408", psiphonDns := "a=b|c", mtu := -1
        splitApps := ["org.one", "org.two"], blockedApps := ["org.three"], strictKillSwitch := true }
    Plain p ∧ delivered p = p := by
  have hplain : Plain
      { protocol := .wireguard, manualPeer := "162.159.192.1:2408", psiphonDns := "a=b|c", mtu := -1
        splitApps := ["org.one", "org.two"], blockedApps := ["org.three"], strictKillSwitch := true } :=
    ⟨by decide, by unfold PlainApps; decide, by unfold PlainApps; decide⟩
  refine ⟨hplain, (delivered_eq_iff _ hplain).mpr ⟨?_, ?_⟩⟩
  · exact ⟨rfl, rfl, rfl, rfl, rfl, rfl, rfl, rfl, rfl, rfl, rfl, rfl, rfl, rfl⟩
  · exact ⟨by decide, by decide⟩

/-- A resolver the user typed does not arrive. -/
theorem delivered_drops_dnsServers :
    Plain { dnsServers := "9.9.9.9" } ∧
      delivered { dnsServers := "9.9.9.9" } ≠ { dnsServers := "9.9.9.9" } := by
  refine ⟨⟨by decide, by unfold PlainApps; decide, by unfold PlainApps; decide⟩, fun h => ?_⟩
  have hdns := (decode_unwritten (some (encode { dnsServers := "9.9.9.9" }))).dnsServers
  rw [← delivered, h] at hdns
  exact absurd hdns (by decide)

end Aether.Profile
