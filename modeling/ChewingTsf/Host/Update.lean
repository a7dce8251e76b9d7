import ChewingTsf.Core.Registry
import ChewingTsf.Host.Version

/-!
# The update check (crates/chewing_tip_host/src/update.rs, update/config.rs, update/releases.rs)

The host reads the list of releases and stores the url of an update under the registry value
`UpdateInfoUrl`, or removes the value. The loop over the releases stops at the first one of
the channel that is newer than the DLL. If that one has no url, storing its url removes the
value, and an update further down in the list is not advertised (`advertises_iff`).

The registry key can be opened and written.
-/

namespace ChewingTsf

/-! ## The releases -/

/-- `Release`. -/
structure Release where
  version : Str
  channel : Str
  url : Str
  deriving DecidableEq

/-- What `fetch_releases` asks of the nodes of the `roxmltree` crate. -/
class XmlNodes (Node : Type) where
  children : Node → List Node
  hasTagName : Node → Str → Bool
  getAttribute : Node → Str → Option Str
  text : Node → Option Str

section Fetch

variable {Node : Type} [XmlNodes Node]

/-- The url of a `release` element. -/
def releaseUrl (rel : Node) : Str :=
  let urls := (XmlNodes.children rel).filter (XmlNodes.hasTagName · "url".toList)
  trim ((urls.filterMap XmlNodes.text).head?.getD [])

/-- What the loop pushes for a child of the root element. -/
def releaseOf (rel : Node) : Option Release :=
  if XmlNodes.hasTagName rel "release".toList then
    match XmlNodes.getAttribute rel "version".toList, XmlNodes.getAttribute rel "type".toList with
    | some version, some type => some ⟨version, type, releaseUrl rel⟩
    | _, _ => none
  else none

/-- `fetch_releases`: the root element is that of the document downloaded and parsed. -/
def fetchReleases (rootElement : Except String Node) : Except String (List Release) :=
  rootElement.map fun root => (XmlNodes.children root).filterMap releaseOf

/-- A release without a `url` element has an empty url. -/
theorem releaseUrl_of_no_url {rel : Node}
    (h : ∀ n ∈ XmlNodes.children rel, XmlNodes.hasTagName n "url".toList = false) :
    releaseUrl rel = [] := by
  have hurls : (XmlNodes.children rel).filter (XmlNodes.hasTagName · "url".toList) = [] := by
    rw [List.filter_eq_nil_iff]
    intro n hn
    simpa using h n hn
  unfold releaseUrl
  rw [hurls]
  rfl

end Fetch

/-! ## The check -/

/-- `set_update_info_url`. -/
def setUpdateInfoUrl (url : Str) (key : RegKey) : RegKey :=
  if url = [] then Function.update key "UpdateInfoUrl" none
  else Function.update key "UpdateInfoUrl" (some (.string url))

@[simp] theorem setUpdateInfoUrl_url (url : Str) (key : RegKey) :
    setUpdateInfoUrl url key "UpdateInfoUrl" = if url = [] then none else some (.string url) := by
  unfold setUpdateInfoUrl
  split <;> simp

@[simp] theorem setUpdateInfoUrl_of_ne {name : String} (h : name ≠ "UpdateInfoUrl") (url : Str)
    (key : RegKey) : setUpdateInfoUrl url key name = key name := by
  unfold setUpdateInfoUrl
  split <;> exact Function.update_of_ne h ..

/-- `set_last_update_check_time`. -/
def setLastUpdateCheckTime (now : UInt64) (key : RegKey) : RegKey :=
  Function.update key "LastUpdateCheckTime" (some (.u64 now))

/-- `CheckUpdateConfig`. -/
structure CheckUpdateConfig where
  enabled : Bool
  channel : Str

/-- The loop over the releases, with the url cleared behind it. -/
def checkReleases (cfg : CheckUpdateConfig) (dllVersion : Str) :
    List Release → RegKey → RegKey
  | [], key => setUpdateInfoUrl [] key
  | rel :: releases, key =>
    if rel.channel = cfg.channel ∧ versionGt rel.version dllVersion = true then
      setUpdateInfoUrl rel.url key
    else checkReleases cfg dllVersion releases key

section Check

variable [TypedReads]

/-- `get_check_update_config`. -/
def getCheckUpdateConfig (fileInfo : Option VsFixedFileInfo) (key : RegKey) :
    CheckUpdateConfig × RegKey :=
  let (channel, key) :=
    match key.getString "AutoCheckUpdateChannel" with
    | .ok ch => (ch, key)
    | .error _ =>
      let dllChannel := chewingDllChannel fileInfo
      (dllChannel, Function.update key "AutoCheckUpdateChannel" (some (.string dllChannel)))
  let enabled := channel = "stable".toList ∨ channel = "development".toList
  (⟨enabled, channel⟩, key)

/-- `check_for_update`. -/
def checkForUpdate (fileInfo : Option VsFixedFileInfo)
    (fetchReleases : Except String (List Release)) (now : UInt64) (key : RegKey) : RegKey :=
  let key := setUpdateInfoUrl [] key
  let (cfg, key) := getCheckUpdateConfig fileInfo key
  if cfg.enabled then
    let dllVersion := chewingDllVersion fileInfo
    match fetchReleases with
    | .ok releases => setLastUpdateCheckTime now (checkReleases cfg dllVersion releases key)
    | .error _ => setUpdateInfoUrl [] key
  else key

end Check

/-! ## What is advertised -/

/-- `rel` is a release of the channel that is newer than the DLL. -/
def Release.Newer (rel : Release) (channel dllVersion : Str) : Prop :=
  rel.channel = channel ∧ versionGt rel.version dllVersion = true

instance (rel : Release) (channel dllVersion : Str) : Decidable (rel.Newer channel dllVersion) :=
  inferInstanceAs (Decidable (_ ∧ _))

/-- The url that is left under `UpdateInfoUrl` by the update check of a release list: the url
of `rel`, if it is not empty. -/
def advertised (rel : Option Release) : Option RegValue :=
  match rel with
  | some rel => if rel.url = [] then none else some (.string rel.url)
  | none => none

/-- The loop stops at the first release that is newer, with or without a url. -/
theorem checkReleases_url (cfg : CheckUpdateConfig) (dllVersion : Str)
    (releases : List Release) (key : RegKey) :
    checkReleases cfg dllVersion releases key "UpdateInfoUrl" =
      advertised (releases.find? fun rel => rel.Newer cfg.channel dllVersion) := by
  induction releases with
  | nil => simp [checkReleases, advertised]
  | cons rel releases ih =>
    rw [checkReleases, List.find?_cons]
    by_cases hnewer : rel.Newer cfg.channel dllVersion
    · rw [if_pos (show _ ∧ _ from hnewer), decide_eq_true hnewer]
      exact setUpdateInfoUrl_url ..
    · rw [if_neg (show ¬ (_ ∧ _) from hnewer), decide_eq_false hnewer]
      exact ih

section Advertised

variable [TypedReads]

/-- Reading the configuration leaves the url alone. -/
theorem getCheckUpdateConfig_url (fileInfo : Option VsFixedFileInfo) (key : RegKey) :
    (getCheckUpdateConfig fileInfo key).2 "UpdateInfoUrl" = key "UpdateInfoUrl" := by
  unfold getCheckUpdateConfig
  cases key.getString "AutoCheckUpdateChannel" with
  | ok ch => rfl
  | error e =>
    have hne : "UpdateInfoUrl" ≠ "AutoCheckUpdateChannel" := by decide
    exact Function.update_of_ne hne (some (.string (chewingDllChannel fileInfo))) key

/-- The configuration does not depend on the url. -/
theorem getCheckUpdateConfig_setUpdateInfoUrl (fileInfo : Option VsFixedFileInfo) (url : Str)
    (key : RegKey) : (getCheckUpdateConfig fileInfo (setUpdateInfoUrl url key)).1 =
      (getCheckUpdateConfig fileInfo key).1 := by
  have hread : (setUpdateInfoUrl url key).getString "AutoCheckUpdateChannel" =
      key.getString "AutoCheckUpdateChannel" := by
    unfold RegKey.getString RegKey.read
    rw [setUpdateInfoUrl_of_ne (by decide)]
  unfold getCheckUpdateConfig
  rw [hread]
  cases key.getString "AutoCheckUpdateChannel" <;> rfl

variable {fileInfo : Option VsFixedFileInfo} {fetched : Except String (List Release)}
  {now : UInt64} {key : RegKey}

/-- Nothing is advertised if the check is disabled. -/
theorem checkForUpdate_url_of_disabled
    (h : (getCheckUpdateConfig fileInfo key).1.enabled = false) :
    checkForUpdate fileInfo fetched now key "UpdateInfoUrl" = none := by
  unfold checkForUpdate
  simp [getCheckUpdateConfig_setUpdateInfoUrl, h, getCheckUpdateConfig_url]

/-- Nothing is advertised if the releases cannot be fetched. -/
theorem checkForUpdate_url_of_error {e : String} :
    checkForUpdate fileInfo (.error e) now key "UpdateInfoUrl" = none := by
  unfold checkForUpdate
  dsimp only
  split
  · simp
  · simp [getCheckUpdateConfig_url]

theorem checkForUpdate_url_of_ok {releases : List Release}
    (h : (getCheckUpdateConfig fileInfo key).1.enabled = true) :
    checkForUpdate fileInfo (.ok releases) now key "UpdateInfoUrl" =
      advertised (releases.find? fun rel =>
        rel.Newer (getCheckUpdateConfig fileInfo key).1.channel (chewingDllVersion fileInfo)) := by
  unfold checkForUpdate
  simp only [getCheckUpdateConfig_setUpdateInfoUrl, h, if_true, setLastUpdateCheckTime]
  rw [Function.update_of_ne (by decide), checkReleases_url]

end Advertised

/-! ## Exactly when there is an update -/

/-- `rel` is a release that the update check is there to find. -/
structure Release.IsUpdate (rel : Release) (fetched : Except String (List Release))
    (channel dllVersion : Str) : Prop where
  mem : ∃ releases, fetched = .ok releases ∧ rel ∈ releases
  newer : rel.Newer channel dllVersion
  url : rel.url ≠ []

/-- If the first release that is newer has no url, none that is newer has one. -/
def FirstHasUrl (releases : List Release) (channel dllVersion : Str) : Prop :=
  ∀ first, releases.find? (fun rel => rel.Newer channel dllVersion) = some first →
    first.url = [] → ∀ rel ∈ releases, rel.Newer channel dllVersion → rel.url = []

section

variable {releases : List Release} {channel dllVersion : Str}

/-- What is advertised is an update in any case. -/
theorem isUpdate_of_advertised {v : RegValue}
    (h : advertised (releases.find? fun rel => rel.Newer channel dllVersion) = some v) :
    ∃ rel : Release, rel.IsUpdate (.ok releases) channel dllVersion ∧ v = .string rel.url := by
  cases hfirst : releases.find? fun rel => rel.Newer channel dllVersion with
  | none => simp [hfirst, advertised] at h
  | some first =>
    have hnewer : first.Newer channel dllVersion := by simpa using List.find?_some hfirst
    have hmem : first ∈ releases := List.mem_of_find?_eq_some hfirst
    rw [hfirst, advertised] at h
    split at h
    · cases h
    · next hurl => exact ⟨first, ⟨⟨releases, rfl, hmem⟩, hnewer, hurl⟩, by simpa using h.symm⟩

theorem isSome_advertised_iff :
    ((advertised (releases.find? fun rel => rel.Newer channel dllVersion)).isSome = true ↔
        ∃ rel : Release, rel.IsUpdate (.ok releases) channel dllVersion) ↔
      FirstHasUrl releases channel dllVersion := by
  constructor
  · intro h first hfirst hurl rel hmem hnewer
    -- nothing is advertised, so `rel` is no update
    rw [hfirst, advertised, if_pos hurl] at h
    by_contra hrel
    exact absurd (h.mpr ⟨rel, ⟨releases, rfl, hmem⟩, hnewer, hrel⟩) (by simp)
  · intro h
    constructor
    · intro hsome
      obtain ⟨v, hv⟩ := Option.isSome_iff_exists.mp hsome
      obtain ⟨rel, hrel, -⟩ := isUpdate_of_advertised hv
      exact ⟨rel, hrel⟩
    · rintro ⟨rel, ⟨⟨_, hreleases, hmem⟩, hnewer, hrel⟩⟩
      cases hreleases
      cases hfirst : releases.find? fun rel => rel.Newer channel dllVersion with
      | none =>
        rw [List.find?_eq_none] at hfirst
        exact absurd (decide_eq_true hnewer) (hfirst rel hmem)
      | some first =>
        have hurl : first.url ≠ [] := fun hurl => hrel (h first hfirst hurl rel hmem hnewer)
        rw [advertised, if_neg hurl]
        rfl

end

section

variable [TypedReads]

/-- `UpdateInfoUrl` is present after the check exactly if the check is enabled and there is an
update, and then it is the url of an update. -/
def AdvertisesUpdate (fileInfo : Option VsFixedFileInfo)
    (fetched : Except String (List Release)) (now : UInt64) (key : RegKey) : Prop :=
  let cfg := (getCheckUpdateConfig fileInfo key).1
  let dllVersion := chewingDllVersion fileInfo
  let url := checkForUpdate fileInfo fetched now key "UpdateInfoUrl"
  (url.isSome = true ↔
      cfg.enabled = true ∧ ∃ rel : Release, rel.IsUpdate fetched cfg.channel dllVersion) ∧
    ∀ v, url = some v →
      ∃ rel : Release, rel.IsUpdate fetched cfg.channel dllVersion ∧ v = .string rel.url

/-- The check advertises an update exactly when there is one, unless a release without a url
stands before every other. -/
theorem advertisesUpdate_iff (fileInfo : Option VsFixedFileInfo)
    (fetched : Except String (List Release)) (now : UInt64) (key : RegKey) :
    AdvertisesUpdate fileInfo fetched now key ↔
      ((getCheckUpdateConfig fileInfo key).1.enabled = true →
        ∀ releases, fetched = .ok releases →
          FirstHasUrl releases (getCheckUpdateConfig fileInfo key).1.channel
            (chewingDllVersion fileInfo)) := by
  unfold AdvertisesUpdate
  cases henabled : (getCheckUpdateConfig fileInfo key).1.enabled with
  | false => simp [checkForUpdate_url_of_disabled henabled, henabled]
  | true =>
    cases fetched with
    | error e =>
      have hnone : ∀ rel : Release, ¬ rel.IsUpdate (.error e)
          (getCheckUpdateConfig fileInfo key).1.channel (chewingDllVersion fileInfo) := by
        rintro rel ⟨⟨_, h, _⟩, _, _⟩
        cases h
      simp [checkForUpdate_url_of_error, hnone]
    | ok releases =>
      simp only [checkForUpdate_url_of_ok henabled, henabled, true_and, true_imp_iff,
        Except.ok.injEq, forall_eq']
      rw [isSome_advertised_iff]
      exact and_iff_left fun v hv => isUpdate_of_advertised hv

end

/-- Two releases are newer than version 25.10.0.0 of the DLL, and only the second has a
url. -/
def releaseWithoutUrl : List Release :=
  [⟨"26.2.0.0".toList, "stable".toList, []⟩,
    ⟨"26.1.0.0".toList, "stable".toList, "https".toList⟩]

theorem releaseWithoutUrl_masks :
    ¬ @AdvertisesUpdate exactReads (some ⟨0x19000A, 0⟩) (.ok releaseWithoutUrl) 0
      fun _ => none := by
  let _ := exactReads
  rintro ⟨hiff, -⟩
  have hurl : (checkForUpdate (some ⟨0x19000A, 0⟩) (.ok releaseWithoutUrl) 0 fun _ => none)
      "UpdateInfoUrl" = none := by decide
  have hupdate : Release.IsUpdate ⟨"26.1.0.0".toList, "stable".toList, "https".toList⟩
      (.ok releaseWithoutUrl) "stable".toList (chewingDllVersion (some ⟨0x19000A, 0⟩)) := by
    refine ⟨⟨_, rfl, by decide⟩, by decide, by decide⟩
  have hsome := hiff.mpr ⟨by decide, _, hupdate⟩
  rw [hurl] at hsome
  cases hsome

end ChewingTsf
