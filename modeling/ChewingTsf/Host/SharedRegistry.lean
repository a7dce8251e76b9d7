import ChewingTsf.Host.Update
import ChewingTsf.Lib.Run

/-!
# The registry key, shared (crates/chewing_tip_core/src/config.rs, crates/chewing_tip_host/src/update.rs)

Whoever saves the preferences and the host's update checks write the same registry key, one
value at a time and at the same time: every connection has its own thread, and with it its own
check. `UpdateCheck.next` is `check_for_update` cut into its reads and writes, and
`UpdateCheck.next_alone` says that these, made one after the other, are the check. The checks
never cost a saved preference, if there is a channel to begin with (`SharedKey.preferences_run`);
if there is none, a check may have read that before the preferences are saved and store the
channel of the DLL afterwards (`SharedKey.channel_lost`).
-/

namespace ChewingTsf

/-! ## The update check, one operation at a time -/

/-- Where a `check_for_update` stands. -/
inductive CheckPhase where
  | clearUrl
  | readChannel
  /-- no channel could be read -/
  | storeChannel (dllChannel : Str)
  | fetch (cfg : CheckUpdateConfig)
  | setTime
  | finished

/-- What a `check_for_update` finds apart from the registry. -/
structure UpdateCheck where
  fileInfo : Option VsFixedFileInfo
  fetched : Except String (List Release)
  now : UInt64

/-- The configuration that a channel stands for. -/
def CheckUpdateConfig.ofChannel (channel : Str) : CheckUpdateConfig :=
  ⟨channel = "stable".toList ∨ channel = "development".toList, channel⟩

/-- What follows `get_check_update_config`. -/
def CheckPhase.configured (channel : Str) : CheckPhase :=
  let cfg := CheckUpdateConfig.ofChannel channel
  if cfg.enabled then .fetch cfg else .finished

theorem CheckPhase.configured_ne (channel dllChannel : Str) :
    CheckPhase.configured channel ≠ .storeChannel dllChannel := by
  rw [configured]
  split <;> exact nofun

/-- The values that belong to the update checks. -/
def updateNames : List String := ["UpdateInfoUrl", "LastUpdateCheckTime"]

section

variable [TypedReads]

/-- The next operation of `check_for_update` on the key. -/
def UpdateCheck.next (c : UpdateCheck) (phase : CheckPhase) (key : RegKey) :
    CheckPhase × RegKey :=
  match phase with
  | .clearUrl => (.readChannel, setUpdateInfoUrl [] key)
  | .readChannel =>
    match key.getString "AutoCheckUpdateChannel" with
    | .ok ch => (.configured ch, key)
    | .error _ => (.storeChannel (chewingDllChannel c.fileInfo), key)
  | .storeChannel dllChannel =>
    (.configured dllChannel,
      Function.update key "AutoCheckUpdateChannel" (some (.string dllChannel)))
  | .fetch cfg =>
    match c.fetched with
    | .ok releases => (.setTime, checkReleases cfg (chewingDllVersion c.fileInfo) releases key)
    | .error _ => (.finished, setUpdateInfoUrl [] key)
  | .setTime => (.finished, setLastUpdateCheckTime c.now key)
  | .finished => (.finished, key)

/-- `UpdateCheck.next` on both, to be repeated. -/
def UpdateCheck.perform (c : UpdateCheck) (p : CheckPhase × RegKey) : CheckPhase × RegKey :=
  c.next p.1 p.2

theorem UpdateCheck.perform_finished (c : UpdateCheck) (n : Nat) (key : RegKey) :
    c.perform^[n] (.finished, key) = (.finished, key) := by
  induction n with
  | zero => rfl
  | succ n ih => exact ih

/-- The rest of the check, once there is a channel. -/
def UpdateCheck.finish (c : UpdateCheck) (cfg : CheckUpdateConfig) (key : RegKey) : RegKey :=
  if cfg.enabled then
    match c.fetched with
    | .ok releases =>
      setLastUpdateCheckTime c.now
        (checkReleases cfg (chewingDllVersion c.fileInfo) releases key)
    | .error _ => setUpdateInfoUrl [] key
  else key

theorem getCheckUpdateConfig_eq (fileInfo : Option VsFixedFileInfo) (key : RegKey) :
    getCheckUpdateConfig fileInfo key =
      match key.getString "AutoCheckUpdateChannel" with
      | .ok ch => (.ofChannel ch, key)
      | .error _ => (.ofChannel (chewingDllChannel fileInfo),
          Function.update key "AutoCheckUpdateChannel"
            (some (.string (chewingDllChannel fileInfo)))) := by
  rw [getCheckUpdateConfig]
  cases key.getString "AutoCheckUpdateChannel" <;> rfl

theorem checkForUpdate_eq (c : UpdateCheck) (key : RegKey) :
    checkForUpdate c.fileInfo c.fetched c.now key =
      c.finish (getCheckUpdateConfig c.fileInfo (setUpdateInfoUrl [] key)).1
        (getCheckUpdateConfig c.fileInfo (setUpdateInfoUrl [] key)).2 := rfl

theorem UpdateCheck.perform_configured (c : UpdateCheck) (channel : Str) (key : RegKey) (n : Nat) :
    c.perform^[n + 2] (.configured channel, key) = (.finished, c.finish (.ofChannel channel) key) := by
  cases henabled : (CheckUpdateConfig.ofChannel channel).enabled with
  | false =>
    have hphase : CheckPhase.configured channel = .finished := by
      rw [CheckPhase.configured, henabled]
      rfl
    rw [hphase, perform_finished, finish, henabled]
    rfl
  | true =>
    have hphase : CheckPhase.configured channel = .fetch (.ofChannel channel) := by
      rw [CheckPhase.configured, henabled]
      rfl
    rw [hphase, finish, henabled, Function.iterate_succ_apply, Function.iterate_succ_apply]
    show c.perform^[n] (c.perform (c.next (.fetch (.ofChannel channel)) key)) = _
    cases hfetched : c.fetched with
    | ok releases =>
      have hnext : c.next (.fetch (.ofChannel channel)) key = (.setTime,
          checkReleases (.ofChannel channel) (chewingDllVersion c.fileInfo) releases key) := by
        rw [next, hfetched]
      rw [hnext]
      exact c.perform_finished n _
    | error e =>
      have hnext : c.next (.fetch (.ofChannel channel)) key =
          (.finished, setUpdateInfoUrl [] key) := by
        rw [next, hfetched]
      rw [hnext]
      exact c.perform_finished n _

/-- **A check that nothing interrupts** is `check_for_update`. -/
theorem UpdateCheck.next_alone (c : UpdateCheck) (key : RegKey) :
    c.perform^[5] (.clearUrl, key) = (.finished, checkForUpdate c.fileInfo c.fetched c.now key) := by
  rw [checkForUpdate_eq, getCheckUpdateConfig_eq]
  show c.perform^[3] (c.next .readChannel (setUpdateInfoUrl [] key)) = _
  rw [next]
  cases (setUpdateInfoUrl [] key).getString "AutoCheckUpdateChannel" with
  | ok ch => exact c.perform_configured ch _ 1
  | error e => exact c.perform_configured _ _ 0

end

/-! ## The shared key -/

/-- The key, and the checks that the threads of the host perform on it. -/
structure SharedKey where
  key : RegKey
  checks : List (UpdateCheck × CheckPhase)

inductive KeyStep where
  /-- whoever saves the preferences writes one value of theirs -/
  | save (write : String × RegValue)
  | begin (check : UpdateCheck)
  /-- the next operation of a check -/
  | check (i : Nat)

/-- The values that `save_reg` writes. -/
def KeyStep.saved : KeyStep → Option (String × RegValue)
  | .save write => some write
  | .begin _ | .check _ => none

namespace SharedKey

section

variable [TypedReads]

/-- Several processes and threads write the key, in any order. -/
inductive Step : SharedKey → KeyStep → SharedKey → Prop
  | save {s : SharedKey} {write : String × RegValue} {cfg : Config} {now : UInt64}
      (hmem : write ∈ cfg.savedValues now) :
      Step s (.save write) { s with key := Function.update s.key write.1 (some write.2) }
  | begin {s : SharedKey} (check : UpdateCheck) :
      Step s (.begin check) { s with checks := s.checks ++ [(check, .clearUrl)] }
  | check {s : SharedKey} {i : Nat} {c : UpdateCheck} {phase : CheckPhase}
      (hget : s.checks[i]? = some (c, phase)) :
      Step s (.check i)
        ⟨(c.next phase s.key).2, s.checks.set i (c, (c.next phase s.key).1)⟩

/-- There is a channel, and no check is about to store another. -/
structure HasChannel (s : SharedKey) : Prop where
  read : ∃ ch, s.key.getString "AutoCheckUpdateChannel" = .ok ch
  checks : ∀ p ∈ s.checks, ∀ dllChannel, p.2 ≠ .storeChannel dllChannel

end

end SharedKey

/-! ## What the checks leave alone -/

open NameStore

/-- A value that is read from keys that agree. -/
theorem NameStore.AgreesOff.read [TypedReads] {ns : List String} {key key' : RegKey}
    (h : AgreesOff ns key key') {α : Type} (get : RegValue → Except String α) {name : String}
    (hname : name ∉ ns) : RegKey.read key get name = RegKey.read key' get name := by
  rw [RegKey.read, RegKey.read, h name hname]

theorem setUpdateInfoUrl_agreesOff {key key' : RegKey} (h : AgreesOff updateNames key key')
    (url : Str) : AgreesOff updateNames (setUpdateInfoUrl url key) key' := by
  intro name hname
  rw [setUpdateInfoUrl_of_ne (List.ne_of_not_mem_cons hname)]
  exact h name hname

theorem setLastUpdateCheckTime_agreesOff {key key' : RegKey}
    (h : AgreesOff updateNames key key') (now : UInt64) :
    AgreesOff updateNames (setLastUpdateCheckTime now key) key' :=
  h.update_left (.tail _ (.head _)) _

theorem checkReleases_agreesOff {key key' : RegKey} (h : AgreesOff updateNames key key')
    (cfg : CheckUpdateConfig) (dllVersion : Str) (releases : List Release) :
    AgreesOff updateNames (checkReleases cfg dllVersion releases key) key' := by
  induction releases with
  | nil => exact setUpdateInfoUrl_agreesOff h []
  | cons rel releases ih =>
    rw [checkReleases]
    split
    · exact setUpdateInfoUrl_agreesOff h rel.url
    · exact ih

section

variable [TypedReads]

/-- Storing a channel is the only operation on a preference. -/
theorem UpdateCheck.next_agreesOff (c : UpdateCheck) {phase : CheckPhase}
    (hphase : ∀ dllChannel, phase ≠ .storeChannel dllChannel) {key key' : RegKey}
    (h : AgreesOff updateNames key key') :
    AgreesOff updateNames (c.next phase key).2 key' := by
  cases phase with
  | clearUrl => exact setUpdateInfoUrl_agreesOff h []
  | readChannel =>
    rw [next]
    cases key.getString "AutoCheckUpdateChannel" <;> exact h
  | storeChannel dllChannel => exact absurd rfl (hphase dllChannel)
  | fetch cfg =>
    rw [next]
    cases c.fetched with
    | ok releases => exact checkReleases_agreesOff h cfg _ releases
    | error e => exact setUpdateInfoUrl_agreesOff h []
  | setTime => exact setLastUpdateCheckTime_agreesOff h c.now
  | finished => exact h

/-- A check that finds a channel stores none. -/
theorem UpdateCheck.next_ne_storeChannel (c : UpdateCheck) {phase : CheckPhase}
    (hphase : ∀ dllChannel, phase ≠ .storeChannel dllChannel) {key : RegKey}
    (hread : ∃ ch, key.getString "AutoCheckUpdateChannel" = .ok ch) (dllChannel : Str) :
    (c.next phase key).1 ≠ .storeChannel dllChannel := by
  cases phase with
  | readChannel =>
    obtain ⟨ch, hread⟩ := hread
    rw [next, hread]
    exact CheckPhase.configured_ne ch dllChannel
  | storeChannel channel => exact absurd rfl (hphase channel)
  | fetch cfg =>
    rw [next]
    cases c.fetched <;> exact nofun
  | clearUrl | setTime | finished => exact nofun

end

/-- The channel is saved as a string. -/
theorem Config.savedValues_channel (cfg : Config) (now : UInt64) :
    ∀ write ∈ cfg.savedValues now, write.1 = "AutoCheckUpdateChannel" →
      write.2 = .string cfg.chewingTsf.autoCheckUpdateChannel := by
  simp [Config.savedValues, regSetI32, regSetBool]

namespace ChewingTsfConfig

/-- The settings that the update checks write. -/
def setUpdate (updateInfoUrl : Str) (lastUpdateCheckTime : Nat) (cfg : ChewingTsfConfig) :
    ChewingTsfConfig :=
  { cfg with updateInfoUrl := updateInfoUrl, lastUpdateCheckTime := lastUpdateCheckTime }

/-- A setting that `f` leaves alone may be read before or after. -/
theorem ifOk_comm {ε α : Type} (f : ChewingTsfConfig → ChewingTsfConfig)
    {cfg : ChewingTsfConfig} {read : Except ε α} {set : ChewingTsfConfig → α → ChewingTsfConfig}
    (h : ∀ cfg value, f (set cfg value) = set (f cfg) value) :
    f (cfg.ifOk read set) = (f cfg).ifOk read set := by
  cases read with
  | ok value => exact h cfg value
  | error => rfl

end ChewingTsfConfig

/-- The values that the labels of a run save, in order. -/
def savedBy (ls : List KeyStep) : List (String × RegValue) := ls.filterMap KeyStep.saved

section

variable [TypedReads]

namespace ChewingTsfConfig

/-- The settings but for those of the update checks. -/
theorem load_of_agreesOff {key key' : RegKey} (h : AgreesOff updateNames key key') :
    load key = setUpdate (load key).updateInfoUrl (load key).lastUpdateCheckTime (load key') := by
  have hset : ∀ u t, setUpdate u t (load key) = setUpdate u t (load key') := by
    intro u t
    have hi32 : ∀ name, name ∉ updateNames → regGetI32 key name = regGetI32 key' name :=
      fun name hname => by rw [regGetI32, regGetI32, h.read _ hname]
    have hbool : ∀ name, name ∉ updateNames → regGetBool key name = regGetBool key' name :=
      fun name hname => by rw [regGetBool, regGetBool, h.read _ hname]
    have hstring : ∀ name, name ∉ updateNames →
        RegKey.getString key name = RegKey.getString key' name :=
      fun name hname => h.read _ hname
    have hu64 : ∀ name, name ∉ updateNames → RegKey.getU64 key name = RegKey.getU64 key' name :=
      fun name hname => h.read _ hname
    have hmulti : ∀ name, name ∉ updateNames →
        RegKey.getMultiString key name = RegKey.getMultiString key' name :=
      fun name hname => h.read _ hname
    -- two of the settings are overwritten, and the others are set after them
    simp (disch := (refine id ?_; intros; simp only [setUpdate])) only [load,
      ifOk_comm (setUpdate u t), ifOk_frame (setUpdate u t)]
    simp (disch := decide) only [hi32, hbool, hstring, hu64, hmulti]
  exact hset _ _

end ChewingTsfConfig

namespace SharedKey

/-- **One step** keeps the preferences those of the saves alone. -/
theorem Step.keeps {s s' : SharedKey} {a : KeyStep} (hstep : Step s a s') {key : RegKey}
    (hchannel : s.HasChannel) (h : AgreesOff updateNames s.key key) :
    s'.HasChannel ∧ AgreesOff updateNames s'.key (key.writeAll (savedBy [a])) := by
  cases hstep with
  | @save write cfg now hmem =>
    refine ⟨⟨?_, hchannel.checks⟩, h.update write.1 (some write.2)⟩
    -- a channel that is overwritten is overwritten with a channel
    by_cases hname : write.1 = "AutoCheckUpdateChannel"
    · refine ⟨cfg.chewingTsf.autoCheckUpdateChannel, ?_⟩
      show RegKey.read (Function.update s.key write.1 (some write.2)) _ _ = _
      rw [RegKey.read, ← hname, Function.update_self, cfg.savedValues_channel now write hmem hname]
      exact TypedReads.getString_string _
    · obtain ⟨ch, hread⟩ := hchannel.read
      have hoff := (AgreesOff.refl [write.1] s.key).update_left (.head _) (some write.2)
      exact ⟨ch, (hoff.read _ fun hmem => hname (List.mem_singleton.mp hmem).symm).trans hread⟩
  | begin check =>
    refine ⟨⟨hchannel.read, ?_⟩, h⟩
    intro p hp dllChannel
    rcases List.mem_append.mp hp with hp | hp
    · exact hchannel.checks p hp dllChannel
    · rw [List.mem_singleton.mp hp]
      intro hstored
      cases hstored
  | @check i c phase hget =>
    -- with a channel stored, no check is about to store one
    have hphase := hchannel.checks (c, phase) (List.mem_of_getElem? hget)
    have hkey := c.next_agreesOff hphase h
    refine ⟨⟨?_, ?_⟩, hkey⟩
    · obtain ⟨ch, hread⟩ := hchannel.read
      have hself := c.next_agreesOff hphase (.refl updateNames s.key)
      exact ⟨ch, (hself.read _ (by decide)).trans hread⟩
    · intro p hp dllChannel
      rcases List.mem_or_eq_of_mem_set hp with hp | rfl
      · exact hchannel.checks p hp dllChannel
      · exact c.next_ne_storeChannel hphase hchannel.read dllChannel

/-- **Every run**: the preferences are those of the saves alone. -/
theorem keeps_run {key : RegKey} (hchannel : ∃ ch, key.getString "AutoCheckUpdateChannel" = .ok ch)
    {ls : List KeyStep} {s : SharedKey} (hrun : Run Step ⟨key, []⟩ ls s) :
    s.HasChannel ∧ AgreesOff updateNames s.key (NameStore.writeAll key (savedBy ls)) := by
  induction hrun with
  | refl => exact ⟨⟨hchannel, nofun⟩, .refl _ _⟩
  | @tail t u ls a _ hstep ih =>
    rw [savedBy, List.filterMap_append, NameStore.writeAll_append]
    exact hstep.keeps ih.1 ih.2

/-- **The update checks cost no preference**: however their reads and writes fall between the
writes of those who save, what is loaded is what the saves alone would leave, but for the
update information. Behind a complete save that no other one cuts into, that is what was
saved, with the keybindings as they are printed and parsed. -/
theorem preferences_run {key : RegKey}
    (hchannel : ∃ ch, key.getString "AutoCheckUpdateChannel" = .ok ch)
    {ls : List KeyStep} {s : SharedKey} (hrun : Run Step ⟨key, []⟩ ls s) :
    let loaded := ChewingTsfConfig.load s.key
    loaded = .setUpdate loaded.updateInfoUrl loaded.lastUpdateCheckTime
        (.load (NameStore.writeAll key (savedBy ls))) ∧
      ∀ (earlier : List (String × RegValue)) (cfg : Config) (now : UInt64),
        cfg.chewingTsf.InRange → savedBy ls = earlier ++ cfg.savedValues now →
          loaded = { cfg.chewingTsf with
            keybind := (cfg.chewingTsf.keybind.map KeybindValue.fmt).filterMap fun value =>
              (KeybindValue.fromStr value).toOption
            updateInfoUrl := loaded.updateInfoUrl
            lastUpdateCheckTime := loaded.lastUpdateCheckTime
            modifiedTimestamp := now.toNat } := by
  have hloaded := ChewingTsfConfig.load_of_agreesOff (keeps_run hchannel hrun).2
  refine ⟨hloaded, ?_⟩
  intro earlier cfg now hrange hsaved
  rw [hsaved, NameStore.writeAll_append] at hloaded
  have hsave := ChewingTsfConfig.load_saveReg cfg now (NameStore.writeAll key earlier) hrange
  rw [Config.saveReg] at hsave
  rw [hsave] at hloaded
  exact hloaded

/-- Saving is a run. -/
theorem run_save (s : SharedKey) {cfg : Config} {now : UInt64} {ws : List (String × RegValue)}
    (hws : ∀ write ∈ ws, write ∈ cfg.savedValues now) :
    Run Step s (ws.map .save) { s with key := NameStore.writeAll s.key ws } := by
  induction ws generalizing s with
  | nil => exact .refl s
  | cons write ws ih =>
    have hstep : Step s (.save write)
        { s with key := Function.update s.key write.1 (some write.2) } :=
      .save (hws write (.head _))
    exact (Run.single hstep).trans (ih _ fun w hw => hws w (.tail _ hw))

theorem run_saveReg (s : SharedKey) (cfg : Config) (now : UInt64) :
    Run Step s ((cfg.savedValues now).map .save) { s with key := cfg.saveReg now s.key } :=
  run_save s fun _ hmem => hmem

end SharedKey

end

theorem savedBy_map (ws : List (String × RegValue)) : savedBy (ws.map .save) = ws := by
  rw [savedBy, List.filterMap_map]
  exact List.filterMap_some

/-! ## A save in the middle of a check -/

/-- Preferences of the development channel. -/
def developmentConfig : Config :=
  ⟨{ ChewingTsfConfig.default with
    autoCheckUpdateChannel := "development".toList
    fontSize := 20 }, [], []⟩

/-- The DLL is of the stable channel, and there is no release. -/
def stableCheck : UpdateCheck := ⟨none, .ok [], 0⟩

/-- The preferences are saved after the check has read the channel. -/
theorem SharedKey.preferences_run_meanwhile :
    let _ := exactReads
    ∃ s : SharedKey, s.checks.map Prod.snd = [.setTime] ∧
      (ChewingTsfConfig.load s.key).fontSize = 20 := by
  intro _
  let key : RegKey := Function.update (fun _ => none) "AutoCheckUpdateChannel"
    (some (.string "stable".toList))
  have hbefore := ((Run.refl ⟨key, []⟩).tail (Step.begin stableCheck)).tail (.check (i := 0) rfl)
  have hread := hbefore.tail (.check (i := 0) rfl)
  have hrun := (hread.trans (run_saveReg _ developmentConfig 7)).tail (.check (i := 0) rfl)
  have hsaved : savedBy (([.begin stableCheck, .check 0, .check 0] ++
      (developmentConfig.savedValues 7).map .save) ++ [.check 0])
        = [] ++ developmentConfig.savedValues 7 := by
    rw [savedBy, List.filterMap_append, List.filterMap_append]
    exact (List.append_nil _).trans (savedBy_map _)
  have hrange : developmentConfig.chewingTsf.InRange := by constructor <;> decide
  have hloaded := (preferences_run ⟨_, rfl⟩ hrun).2 [] developmentConfig 7 hrange hsaved
  exact ⟨_, rfl, (congrArg ChewingTsfConfig.fontSize hloaded).trans rfl⟩

/-- Without a channel to begin with, the check stores that of the DLL over the one that was
saved. -/
theorem SharedKey.channel_lost :
    let _ := exactReads
    ∃ (ls : List KeyStep) (s : SharedKey), Run Step ⟨fun _ => none, []⟩ ls s ∧
      savedBy ls = developmentConfig.savedValues 7 ∧
      (ChewingTsfConfig.load s.key).autoCheckUpdateChannel = "stable".toList := by
  intro _
  have hbefore := ((Run.refl ⟨fun _ => none, []⟩).tail (Step.begin stableCheck)).tail
    (.check (i := 0) rfl)
  have hread := hbefore.tail (.check (i := 0) rfl)
  refine ⟨_, _, (hread.trans (run_saveReg _ developmentConfig 7)).tail (.check (i := 0) rfl), ?_, ?_⟩
  · rw [savedBy, List.filterMap_append, List.filterMap_append]
    exact (List.append_nil _).trans (savedBy_map _)
  · decide +kernel

end ChewingTsf
