import Aether.Profile.Transport

/-! What a profile text may lose or gain.

A text of the codec is read by builds that know other keys than the build that wrote it.
The order of its lines does not matter, nor do lines that the reader has no use for; and
a key that is missing, or has a value its reader refuses, costs its own field and no
other (`decode_tolerant`).

`Key` lists the keys and says of each which field it stands for and which values its
reader takes. -/
namespace Aether.Profile.Codec
open Kotlin

/-! ### Keys -/

/-- The keys of the format. -/
inductive Key where
  | protocol | scan | ip | quick | h2 | share | noize | endpoint | peer | range | keepalive | fragment
  | ech | mtu | proxy | split | splitApps | kill | strictKill | v6leak | smartRe | reLimit | fSize
  | fDelay | noDataCheck | tlsGroups | valSecs | recSecs | noProfRetry | coreLog | blockedApps | psiOn
  | psiReg | psiProt | psiTimeout | psiDns
deriving DecidableEq

namespace Key

/-- The key as it is written. -/
def text : Key → String
  | protocol => "protocol"
  | scan => "scan"
  | ip => "ip"
  | quick => "quick"
  | h2 => "h2"
  | share => "share"
  | noize => "noize"
  | endpoint => "endpoint"
  | peer => "peer"
  | range => "range"
  | keepalive => "keepalive"
  | fragment => "fragment"
  | ech => "ech"
  | mtu => "mtu"
  | proxy => "proxy"
  | split => "split"
  | splitApps => "splitApps"
  | kill => "kill"
  | strictKill => "strictKill"
  | v6leak => "v6leak"
  | smartRe => "smartRe"
  | reLimit => "reLimit"
  | fSize => "fSize"
  | fDelay => "fDelay"
  | noDataCheck => "noDataCheck"
  | tlsGroups => "tlsGroups"
  | valSecs => "valSecs"
  | recSecs => "recSecs"
  | noProfRetry => "noProfRetry"
  | coreLog => "coreLog"
  | blockedApps => "blockedApps"
  | psiOn => "psiOn"
  | psiReg => "psiReg"
  | psiProt => "psiProt"
  | psiTimeout => "psiTimeout"
  | psiDns => "psiDns"

/-- The field of the key at the model's default, every other field as it was. -/
def reset (k : Key) (p : ConnectionProfile) : ConnectionProfile :=
  let d : ConnectionProfile := {}
  match k with
  | protocol => {p with protocol := d.protocol}
  | scan => {p with scanMode := d.scanMode}
  | ip => {p with ipVersion := d.ipVersion}
  | quick => {p with quickReconnect := d.quickReconnect}
  | h2 => {p with masqueHttp2 := d.masqueHttp2}
  | share => {p with lanShare := d.lanShare}
  | noize => {p with noize := d.noize}
  | endpoint => {p with endpointMode := d.endpointMode}
  | peer => {p with manualPeer := d.manualPeer}
  | range => {p with manualRange := d.manualRange}
  | keepalive => {p with keepalive := d.keepalive}
  | fragment => {p with fragment := d.fragment}
  | ech => {p with ech := d.ech}
  | mtu => {p with mtu := d.mtu}
  | proxy => {p with proxyMode := d.proxyMode}
  | split => {p with splitMode := d.splitMode}
  | splitApps => {p with splitApps := d.splitApps}
  | kill => {p with killSwitch := d.killSwitch}
  | strictKill => {p with strictKillSwitch := d.strictKillSwitch}
  | v6leak => {p with ipv6LeakProtection := d.ipv6LeakProtection}
  | smartRe => {p with smartReconnect := d.smartReconnect}
  | reLimit => {p with reconnectRetryLimit := d.reconnectRetryLimit}
  | fSize => {p with fragmentSize := d.fragmentSize}
  | fDelay => {p with fragmentDelay := d.fragmentDelay}
  | noDataCheck => {p with noDataCheck := d.noDataCheck}
  | tlsGroups => {p with tlsGroups := d.tlsGroups}
  | valSecs => {p with validateSecs := d.validateSecs}
  | recSecs => {p with reconnectSecs := d.reconnectSecs}
  | noProfRetry => {p with noProfileRetry := d.noProfileRetry}
  | coreLog => {p with coreLogLevel := d.coreLogLevel}
  | blockedApps => {p with blockedApps := d.blockedApps}
  | psiOn => {p with psiphonEnabled := d.psiphonEnabled}
  | psiReg => {p with psiphonRegion := d.psiphonRegion}
  | psiProt => {p with psiphonProtocols := d.psiphonProtocols}
  | psiTimeout => {p with psiphonTimeout := d.psiphonTimeout}
  | psiDns => {p with psiphonDns := d.psiphonDns}

/-- The reader of the key takes the value. Texts and lists of packages take any. -/
def parses (k : Key) (value : String) : Bool :=
  match k with
  | protocol => (enumValueOf Protocol value).isSome
  | scan => (enumValueOf ScanMode value).isSome
  | ip => (enumValueOf IpVersion value).isSome
  | noize => (enumValueOf Noize value).isSome
  | endpoint => (enumValueOf EndpointMode value).isSome
  | split => (enumValueOf SplitMode value).isSome
  | coreLog => (enumValueOf CoreLogLevel value).isSome
  | psiReg => (enumValueOf PsiphonRegion value).isSome
  | quick | h2 | share | fragment | ech | proxy | kill | strictKill | v6leak | smartRe | noDataCheck
  | noProfRetry | psiOn => (toBooleanStrictOrNull value).isSome
  | keepalive | mtu | reLimit | valSecs | recSecs | psiTimeout => (toIntOrNull value).isSome
  | peer | range | splitApps | fSize | fDelay | tlsGroups | blockedApps | psiProt | psiDns => true

end Key

/-! ### Texts -/

/-- Every line of the text is a key and a value. -/
def KeyValue (raw : String) : Prop := ∀ line ∈ lineSequence raw.toList, (parseLine line).isSome = true

/-- The keys of the text, line by line. -/
def keys (raw : String) : List String := ((lineSequence raw.toList).filterMap parseLine).map Prod.fst

/-- The line has no `=`, or what stands before it is none of the keys. -/
def Ignored (line : List Char) : Prop :=
  '=' ∉ line ∨ ∀ k : Key, k.text.toList ≠ line.takeWhile (· != '=')

/-- The second list is the first with ignored lines put in anywhere. -/
inductive Inserted : List (List Char) → List (List Char) → Prop where
  | nil : Inserted [] []
  | keep (line : List Char) {ls ls' : List (List Char)} (h : Inserted ls ls') : Inserted (line :: ls) (line :: ls')
  | add {line : List Char} {ls ls' : List (List Char)} (hline : Ignored line) (h : Inserted ls ls') :
      Inserted ls (line :: ls')

/-- The text consists of these lines; of none if it is empty. -/
def MadeOf (raw : String) (ls : List (List Char)) : Prop :=
  if ls = [] then raw = "" else lineSequence raw.toList = ls

/-- The line gives the key a value. -/
def Gives (k : Key) (value : String) (line : List Char) : Prop := parseLine line = some (k.text, value)

/-! ### Lines and values -/

theorem parseLine_some {line : List Char} {e : String × String} (h : parseLine line = some e) :
    '=' ∈ line ∧ e.1.toList = line.takeWhile (· != '=') := by
  unfold parseLine at h
  split at h
  · cases h
  · cases h
  · rename_i c value hdrop _
    obtain rfl := Option.some.inj h
    have hc : c ∈ line := (List.dropWhile_suffix _).sublist.mem (hdrop ▸ List.mem_cons_self ..)
    have heq : c = '=' := by
      have hhead := List.head?_dropWhile_not (· != '=') line
      rw [hdrop] at hhead
      simpa using hhead
    exact ⟨heq ▸ hc, String.toList_ofList⟩

theorem mem_lineSequence {s line : List Char} (h : line ∈ lineSequence s) : ∀ c ∈ line, c ∈ s := by
  induction s using lineSequence.induct generalizing line with
  | case1 =>
    intro c hc
    rw [lineSequence, List.mem_singleton] at h
    rw [h] at hc
    cases hc
  | case2 cs ih =>
    intro c hc
    rw [lineSequence] at h
    rcases List.mem_cons.mp h with rfl | h
    · cases hc
    · exact List.mem_cons_of_mem _ (List.mem_cons_of_mem _ (ih h c hc))
  | case3 c' cs hcr hbreak ih =>
    intro c hc
    have hstep : lineSequence (c' :: cs) = [] :: lineSequence cs := by simp [lineSequence, hbreak]
    rw [hstep] at h
    rcases List.mem_cons.mp h with rfl | h
    · cases hc
    · exact List.mem_cons_of_mem _ (ih h c hc)
  | case4 c' cs hcr hbreak ih =>
    intro c hc
    have hc' : isLineBreak c' = false := by simpa using hbreak
    obtain ⟨l, ls, hls⟩ := List.exists_cons_of_ne_nil (lineSequence_ne_nil cs)
    rw [lineSequence_cons hc', hls, List.modifyHead_cons] at h
    rcases List.mem_cons.mp h with rfl | h
    · rcases List.mem_cons.mp hc with rfl | hc
      · exact List.mem_cons_self ..
      · exact List.mem_cons_of_mem _ (ih (hls ▸ List.mem_cons_self ..) c hc)
    · exact List.mem_cons_of_mem _ (ih (hls ▸ List.mem_cons_of_mem _ h) c hc)

/-- A text with a pair in it is read by its pairs. -/
theorem decode_of_pair {raw : String} {line : List Char} (hline : line ∈ lineSequence raw.toList)
    (heq : '=' ∈ line) :
    decode (some raw) = fromMap (toMap ((lineSequence raw.toList).filterMap parseLine)) := by
  have hin : '=' ∈ raw.toList := mem_lineSequence hline _ heq
  have hblank : isBlank raw = false := by
    rw [isBlank, List.all_eq_false]
    exact ⟨'=', hin, by decide⟩
  rw [decode]
  simp only [hblank, Bool.false_eq_true, if_false, hin, not_true_eq_false, false_and]

theorem toMap_eq_some_iff {pairs : List (String × String)} (hnodup : (pairs.map Prod.fst).Nodup)
    {key value : String} : toMap pairs key = some value ↔ (key, value) ∈ pairs := by
  constructor
  · intro h
    rw [toMap, Option.map_eq_some_iff] at h
    obtain ⟨e, he, rfl⟩ := h
    have hkey : e.1 = key := by simpa using List.find?_some he
    rw [← hkey]
    exact List.mem_reverse.mp (List.mem_of_find?_eq_some he)
  · exact fun h => toMap_of_mem hnodup h

/-- Only the pairs of a text count, not their order. -/
theorem toMap_perm {pairs pairs' : List (String × String)} (hnodup : (pairs.map Prod.fst).Nodup)
    (hperm : pairs'.Perm pairs) : toMap pairs' = toMap pairs := by
  have hnodup' : (pairs'.map Prod.fst).Nodup := (hperm.map _).nodup_iff.mpr hnodup
  funext key
  apply Option.ext
  intro value
  rw [toMap_eq_some_iff hnodup', toMap_eq_some_iff hnodup, hperm.mem_iff]

theorem toMap_none {pairs : List (String × String)} {key : String} (h : key ∉ pairs.map Prod.fst) :
    toMap pairs key = none := by
  rw [toMap, Option.map_eq_none_iff, List.find?_eq_none]
  intro e he hkey
  have heq : e.1 = key := by simpa using hkey
  exact h (heq ▸ List.mem_map_of_mem (List.mem_reverse.mp he))

/-- The value of a key is found past a pair with another key. -/
theorem toMap_middle_ne {before after : List (String × String)} {e : String × String} {key : String}
    (hne : e.1 ≠ key) : toMap (before ++ e :: after) key = toMap (before ++ after) key := by
  have hskip : (e.1 == key) = false := beq_eq_false_iff_ne.mpr hne
  simp [toMap, List.find?_append, hskip]

/-- The profile reads nothing but the values of the keys. -/
theorem fromMap_congr {map map' : String → Option String} (h : ∀ k : Key, map' k.text = map k.text) :
    fromMap map' = fromMap map := by
  simp only [fromMap, show map' "protocol" = map "protocol" from h .protocol,
    show map' "scan" = map "scan" from h .scan, show map' "ip" = map "ip" from h .ip,
    show map' "quick" = map "quick" from h .quick, show map' "h2" = map "h2" from h .h2,
    show map' "share" = map "share" from h .share, show map' "noize" = map "noize" from h .noize,
    show map' "endpoint" = map "endpoint" from h .endpoint, show map' "peer" = map "peer" from h .peer,
    show map' "range" = map "range" from h .range, show map' "keepalive" = map "keepalive" from h .keepalive,
    show map' "fragment" = map "fragment" from h .fragment, show map' "ech" = map "ech" from h .ech,
    show map' "mtu" = map "mtu" from h .mtu, show map' "proxy" = map "proxy" from h .proxy,
    show map' "split" = map "split" from h .split, show map' "splitApps" = map "splitApps" from h .splitApps,
    show map' "kill" = map "kill" from h .kill, show map' "strictKill" = map "strictKill" from h .strictKill,
    show map' "v6leak" = map "v6leak" from h .v6leak, show map' "smartRe" = map "smartRe" from h .smartRe,
    show map' "reLimit" = map "reLimit" from h .reLimit, show map' "fSize" = map "fSize" from h .fSize,
    show map' "fDelay" = map "fDelay" from h .fDelay,
    show map' "noDataCheck" = map "noDataCheck" from h .noDataCheck,
    show map' "tlsGroups" = map "tlsGroups" from h .tlsGroups,
    show map' "valSecs" = map "valSecs" from h .valSecs, show map' "recSecs" = map "recSecs" from h .recSecs,
    show map' "noProfRetry" = map "noProfRetry" from h .noProfRetry,
    show map' "coreLog" = map "coreLog" from h .coreLog,
    show map' "blockedApps" = map "blockedApps" from h .blockedApps,
    show map' "psiOn" = map "psiOn" from h .psiOn, show map' "psiReg" = map "psiReg" from h .psiReg,
    show map' "psiProt" = map "psiProt" from h .psiProt,
    show map' "psiTimeout" = map "psiTimeout" from h .psiTimeout,
    show map' "psiDns" = map "psiDns" from h .psiDns]

/-- A value that its reader refuses counts as none, and none costs the field. -/
theorem fromMap_reset (k : Key) {map map' : String → Option String} (hsame : ∀ key ≠ k.text, map' key = map key)
    (hk : ∀ value ∈ map' k.text, k.parses value = false) : fromMap map' = k.reset (fromMap map) := by
  have hnone : ∀ {α : Type} (read : String → Option α), (∀ value, k.parses value = (read value).isSome) →
      (map' k.text).bind read = none := by
    intro α read hread
    rw [Option.bind_eq_none_iff]
    intro value hvalue
    have h := hk value hvalue
    rw [hread] at h
    simpa using h
  have habsent : (∀ value, k.parses value = true) → map' k.text = none := by
    intro hall
    apply Option.eq_none_iff_forall_ne_some.mpr
    intro value hvalue
    have h := hk value hvalue
    rw [hall] at h
    cases h
  cases k with
  | protocol =>
    have h := hnone (enumValueOf Protocol) fun _ => rfl
    simp only [Key.text] at h hsame
    simp [fromMap, Key.reset, hsame, h]
  | scan =>
    have h := hnone (enumValueOf ScanMode) fun _ => rfl
    simp only [Key.text] at h hsame
    simp [fromMap, Key.reset, hsame, h]
  | ip =>
    have h := hnone (enumValueOf IpVersion) fun _ => rfl
    simp only [Key.text] at h hsame
    simp [fromMap, Key.reset, hsame, h]
  | noize =>
    have h := hnone (enumValueOf Noize) fun _ => rfl
    simp only [Key.text] at h hsame
    simp [fromMap, Key.reset, hsame, h]
  | endpoint =>
    have h := hnone (enumValueOf EndpointMode) fun _ => rfl
    simp only [Key.text] at h hsame
    simp [fromMap, Key.reset, hsame, h]
  | split =>
    have h := hnone (enumValueOf SplitMode) fun _ => rfl
    simp only [Key.text] at h hsame
    simp [fromMap, Key.reset, hsame, h]
  | coreLog =>
    have h := hnone (enumValueOf CoreLogLevel) fun _ => rfl
    simp only [Key.text] at h hsame
    simp [fromMap, Key.reset, hsame, h]
  | psiReg =>
    have h := hnone (enumValueOf PsiphonRegion) fun _ => rfl
    simp only [Key.text] at h hsame
    simp [fromMap, Key.reset, hsame, h]
  | quick | h2 | share | fragment | ech | proxy | kill | strictKill | v6leak | smartRe | noDataCheck
  | noProfRetry | psiOn =>
    have h := hnone toBooleanStrictOrNull fun _ => rfl
    simp only [Key.text] at h hsame
    simp [fromMap, Key.reset, hsame, h]
  | keepalive | mtu | reLimit | valSecs | recSecs | psiTimeout =>
    have h := hnone toIntOrNull fun _ => rfl
    simp only [Key.text] at h hsame
    simp [fromMap, Key.reset, hsame, h]
  | peer | range | splitApps | fSize | fDelay | tlsGroups | blockedApps | psiProt | psiDns =>
    have h := habsent fun _ => rfl
    simp only [Key.text] at h hsame
    simp [fromMap, Key.reset, hsame, h]

/-! ### Lines put in and taken out -/

/-- An ignored line gives no key of the format a value. -/
theorem ignored_pair {line : List Char} (h : Ignored line) {e : String × String} (he : parseLine line = some e)
    (k : Key) : e.1 ≠ k.text := by
  obtain ⟨heq, hkey⟩ := parseLine_some he
  intro hk
  rcases h with h | h
  · exact h heq
  · exact h k (by rw [← hkey, hk])

theorem toMap_cons_ne {pairs : List (String × String)} {e : String × String} {key : String} (hne : e.1 ≠ key) :
    toMap (e :: pairs) key = toMap pairs key := @toMap_middle_ne [] pairs e key hne

/-- Ignored lines leave the values of the keys as they are. -/
theorem toMap_inserted {ls ls' : List (List Char)} (h : Inserted ls ls') (k : Key) :
    toMap (ls'.filterMap parseLine) k.text = toMap (ls.filterMap parseLine) k.text := by
  induction h with
  | nil => rfl
  | @keep line ls ls' _ ih =>
    cases he : parseLine line with
    | none => rw [List.filterMap_cons_none he, List.filterMap_cons_none he, ih]
    | some e =>
      rw [List.filterMap_cons_some he, List.filterMap_cons_some he]
      rw [toMap, toMap, List.reverse_cons, List.reverse_cons, List.find?_append, List.find?_append]
      rw [toMap, toMap] at ih
      cases hfind : (ls.filterMap parseLine).reverse.find? fun e => e.1 == k.text with
      | none =>
        rw [hfind, Option.map_none, Option.map_eq_none_iff] at ih
        rw [ih]
      | some found =>
        rw [hfind, Option.map_some, Option.map_eq_some_iff] at ih
        obtain ⟨found', hfound', heq⟩ := ih
        rw [hfound']
        simp [heq]
  | @add line ls ls' hline _ ih =>
    cases he : parseLine line with
    | none => rw [List.filterMap_cons_none he, ih]
    | some e => rw [List.filterMap_cons_some he, toMap_cons_ne (ignored_pair hline he k), ih]

theorem Inserted.mem {ls ls' : List (List Char)} (h : Inserted ls ls') : ∀ line ∈ ls, line ∈ ls' := by
  induction h with
  | nil => exact fun _ h => h
  | keep line _ ih =>
    intro l hl
    rcases List.mem_cons.mp hl with rfl | hl
    · exact List.mem_cons_self ..
    · exact List.mem_cons_of_mem _ (ih l hl)
  | add _ _ ih => exact fun l hl => List.mem_cons_of_mem _ (ih l hl)

variable {raw raw' : String}

/-- A text of pairs is read by its pairs. -/
theorem decode_keyValue (h : KeyValue raw) :
    decode (some raw) = fromMap (toMap ((lineSequence raw.toList).filterMap parseLine)) := by
  obtain ⟨line, rest, hlines⟩ := List.exists_cons_of_ne_nil (lineSequence_ne_nil raw.toList)
  have hline : line ∈ lineSequence raw.toList := hlines ▸ List.mem_cons_self ..
  obtain ⟨e, he⟩ := Option.isSome_iff_exists.mp (h line hline)
  exact decode_of_pair hline (parseLine_some he).1

theorem decode_perm (h : KeyValue raw) (hkeys : (keys raw).Nodup)
    (hperm : (lineSequence raw'.toList).Perm (lineSequence raw.toList)) : decode (some raw') = decode (some raw) := by
  have h' : KeyValue raw' := fun line hline => h line (hperm.mem_iff.mp hline)
  rw [decode_keyValue h, decode_keyValue h', toMap_perm hkeys (hperm.filterMap _)]

theorem decode_inserted (h : KeyValue raw) (hins : Inserted (lineSequence raw.toList) (lineSequence raw'.toList)) :
    decode (some raw') = decode (some raw) := by
  obtain ⟨line, rest, hlines⟩ := List.exists_cons_of_ne_nil (lineSequence_ne_nil raw.toList)
  have hline : line ∈ lineSequence raw.toList := hlines ▸ List.mem_cons_self ..
  obtain ⟨e, he⟩ := Option.isSome_iff_exists.mp (h line hline)
  rw [decode_keyValue h, decode_of_pair (hins.mem line hline) (parseLine_some he).1]
  exact fromMap_congr fun k => toMap_inserted hins k

/-- A text made of the pairs that are left is read by them, also when none is left. -/
theorem decode_madeOf {ls : List (List Char)} (hmade : MadeOf raw' ls)
    (h : ∀ line ∈ ls, (parseLine line).isSome = true) :
    decode (some raw') = fromMap (toMap (ls.filterMap parseLine)) := by
  rw [MadeOf] at hmade
  split at hmade
  case isTrue hnil =>
    subst hmade hnil
    rfl
  case isFalse hne =>
    have h' : KeyValue raw' := by
      intro line hline
      exact h line (hmade ▸ hline)
    rw [decode_keyValue h', hmade]

section OneKey
variable {k : Key} {value : String} {before after : List (List Char)} {line : List Char}

/-- The pairs around the line of a key. -/
theorem pairs_around (hgives : Gives k value line) :
    (before ++ line :: after).filterMap parseLine =
      before.filterMap parseLine ++ (k.text, value) :: after.filterMap parseLine := by
  rw [List.filterMap_append, List.filterMap_cons_some hgives]

theorem decode_removed (h : KeyValue raw) (hkeys : (keys raw).Nodup)
    (hlines : lineSequence raw.toList = before ++ line :: after) (hgives : Gives k value line)
    (hmade : MadeOf raw' (before ++ after)) : decode (some raw') = k.reset (decode (some raw)) := by
  have hleft : ∀ l ∈ before ++ after, (parseLine l).isSome = true := by
    intro l hl
    apply h l
    rw [hlines]
    rcases List.mem_append.mp hl with hl | hl
    · exact List.mem_append_left _ hl
    · exact List.mem_append_right _ (List.mem_cons_of_mem _ hl)
  rw [keys, hlines, pairs_around hgives, List.map_append, List.map_cons] at hkeys
  rw [decode_madeOf hmade hleft, decode_keyValue h, hlines, pairs_around hgives, List.filterMap_append]
  apply fromMap_reset k
  · exact fun key hne => (toMap_middle_ne fun heq => hne heq.symm).symm
  · intro v hv
    have hgone : k.text ∉ (before.filterMap parseLine ++ after.filterMap parseLine).map Prod.fst := by
      rw [List.map_append]
      exact (List.nodup_cons.mp (List.nodup_middle.mp hkeys)).1
    rw [toMap_none hgone] at hv
    cases hv

theorem decode_corrupted {value' : String} {line' : List Char} (h : KeyValue raw) (hkeys : (keys raw).Nodup)
    (hlines : lineSequence raw.toList = before ++ line :: after) (hgives : Gives k value line)
    (hlines' : lineSequence raw'.toList = before ++ line' :: after) (hgives' : Gives k value' line')
    (hrefused : k.parses value' = false) : decode (some raw') = k.reset (decode (some raw)) := by
  have h' : KeyValue raw' := by
    intro l hl
    rw [hlines'] at hl
    rcases List.mem_append.mp hl with hl | hl
    · exact h l (hlines ▸ List.mem_append_left _ hl)
    · rcases List.mem_cons.mp hl with rfl | hl
      · rw [hgives']
        rfl
      · exact h l (hlines ▸ List.mem_append_right _ (List.mem_cons_of_mem _ hl))
  rw [keys, hlines, pairs_around hgives, List.map_append, List.map_cons] at hkeys
  have hkeys' : ((before.filterMap parseLine ++ (k.text, value') :: after.filterMap parseLine).map Prod.fst).Nodup := by
    rw [List.map_append, List.map_cons]
    exact hkeys
  rw [decode_keyValue h', decode_keyValue h, hlines, hlines', pairs_around hgives, pairs_around hgives']
  apply fromMap_reset k
  · intro key hne
    have hne' : ∀ v : String, ((k.text, v) : String × String).1 ≠ key := fun v heq => hne heq.symm
    rw [toMap_middle_ne (hne' value'), toMap_middle_ne (hne' value)]
  · intro v hv
    have hgiven : toMap (before.filterMap parseLine ++ (k.text, value') :: after.filterMap parseLine) k.text =
        some value' := toMap_of_mem hkeys' (List.mem_append_right _ (List.mem_cons_self ..))
    rw [hgiven] at hv
    cases hv
    exact hrefused

end OneKey

/-- For every text of pairs with distinct keys: the lines may be permuted, and lines without
use put in, and nothing changes; and to take the line of a key out, or to give the key a
value that its reader refuses, puts its field at the default and changes no other. -/
theorem decode_tolerant (h : KeyValue raw) (hkeys : (keys raw).Nodup) :
    (∀ raw' : String, (lineSequence raw'.toList).Perm (lineSequence raw.toList) →
      decode (some raw') = decode (some raw)) ∧
    (∀ raw' : String, Inserted (lineSequence raw.toList) (lineSequence raw'.toList) →
      decode (some raw') = decode (some raw)) ∧
    ∀ (k : Key) (value : String) (before after : List (List Char)) (line : List Char),
      lineSequence raw.toList = before ++ line :: after → Gives k value line →
      (∀ raw' : String, MadeOf raw' (before ++ after) → decode (some raw') = k.reset (decode (some raw))) ∧
      ∀ (raw' value' : String) (line' : List Char), lineSequence raw'.toList = before ++ line' :: after →
        Gives k value' line' → k.parses value' = false → decode (some raw') = k.reset (decode (some raw)) := by
  refine ⟨fun raw' => decode_perm h hkeys, fun raw' => decode_inserted h, ?_⟩
  intro k value before after line hlines hgives
  constructor
  · exact fun raw' => decode_removed h hkeys hlines hgives
  · exact fun raw' value' line' hlines' => decode_corrupted h hkeys hlines hgives hlines'

/-- Two lines; without the first the other still counts. -/
theorem decode_tolerant_mtu :
    decode (some "quick=false") = Key.mtu.reset (decode (some "mtu=1400\nquick=false")) :=
  ((@decode_tolerant "mtu=1400\nquick=false" (by unfold KeyValue; decide) (by decide)).2.2 .mtu "1400" []
    ["quick=false".toList] "mtu=1400".toList (by decide) (by unfold Gives; decide)).1 "quick=false" (by unfold MadeOf; decide)

end Aether.Profile.Codec
