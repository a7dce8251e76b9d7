import ChewingTsf.Tip.OpenClose

/-!
# The language bar (tip/src/text_service/lang_bar.rs)

Two buttons show the language and the output, one of them in the systray, and a third shows the
character form. `update_lang_buttons` sets their icons one after the other and gives up at the
first that fails; only if all are set are the marks of the menu brought up to date
(`LangBar.updateLangButtons`). `get_lang_icon_id` picks the icon by the theme, the language, the
output and whether there is a new version.

An icon is the number of its resource. The status of a button has two bits: the service
disables a button, and TSF hides one (`Show`).
-/

namespace ChewingTsf

/-! ## The theme (tip/src/text_service/theme.rs) -/

inductive WindowsTheme where
  | light | dark | unknown
  deriving DecidableEq

/-- `read_theme_value`; `none` if the value cannot be read. -/
def WindowsTheme.readThemeValue (value : Option UInt32) : Option WindowsTheme :=
  value.map fun v => if v = 0 then .dark else if v = 1 then .light else .unknown

/-- `detect_theme`, of `SystemUsesLightTheme` and `AppsUseLightTheme`. -/
def WindowsTheme.detectTheme (system app : Option UInt32) : WindowsTheme :=
  (readThemeValue system).getD ((readThemeValue app).getD .light)

/-! ## Icons (tip/src/text_service/resources.rs) -/

def IDI_CHI : UInt32 := 103
def IDI_ENG : UInt32 := 105
def IDI_FULL_SHAPE : UInt32 := 106
def IDI_HALF_SHAPE : UInt32 := 107
def IDI_CHI_DARK : UInt32 := 108
def IDI_ENG_DARK : UInt32 := 109
def IDI_SIMP : UInt32 := 110
def IDI_SIMP_DARK : UInt32 := 111
def IDI_CHI_DOT : UInt32 := 112
def IDI_CHI_DARK_DOT : UInt32 := 113
def IDI_ENG_DOT : UInt32 := 114
def IDI_ENG_DARK_DOT : UInt32 := 115
def IDI_SIMP_DOT : UInt32 := 116
def IDI_SIMP_DARK_DOT : UInt32 := 117

/-- What `update_lang_buttons` reads of the service. -/
structure BarView where
  langMode : TsfLangMode
  outputSimpChinese : Bool
  updateInfoUrl : Str
  characterForm : CharacterForm

/-- `get_lang_icon_id`; `showDot` says whether there is a new version. -/
def langIconId (theme : WindowsTheme) (langMode : TsfLangMode) (outputSimpChinese showDot : Bool) :
    UInt32 :=
  let iconId := match theme, langMode with
    | .light, .chinese => IDI_CHI
    | .light, .english => IDI_ENG
    | .dark, .chinese => IDI_CHI_DARK
    | .dark, .english => IDI_ENG_DARK
    | _, _ => IDI_CHI
  let iconId :=
    if outputSimpChinese then
      if iconId = IDI_CHI then IDI_SIMP
      else if iconId = IDI_CHI_DARK then IDI_SIMP_DARK
      else iconId
    else iconId
  if showDot then
    if iconId = IDI_CHI then IDI_CHI_DOT
    else if iconId = IDI_CHI_DARK then IDI_CHI_DARK_DOT
    else if iconId = IDI_ENG then IDI_ENG_DOT
    else if iconId = IDI_ENG_DARK then IDI_ENG_DARK_DOT
    else if iconId = IDI_SIMP then IDI_SIMP_DOT
    else if iconId = IDI_SIMP_DARK then IDI_SIMP_DARK_DOT
    else iconId
  else iconId

def getLangIconId (theme : WindowsTheme) (v : BarView) : UInt32 :=
  langIconId theme v.langMode v.outputSimpChinese !v.updateInfoUrl.isEmpty

/-- The icon of the character form. -/
def shapeIconId (form : CharacterForm) : UInt32 :=
  if form = .fullwidth then IDI_FULL_SHAPE else IDI_HALF_SHAPE

/-- The icons of the English mode. -/
def englishIcons : List UInt32 := [IDI_ENG, IDI_ENG_DARK, IDI_ENG_DOT, IDI_ENG_DARK_DOT]

/-- The icons of the output in simplified characters. -/
def simplifiedIcons : List UInt32 := [IDI_SIMP, IDI_SIMP_DARK, IDI_SIMP_DOT, IDI_SIMP_DARK_DOT]

/-- The icons of a new version. -/
def dotIcons : List UInt32 :=
  [IDI_CHI_DOT, IDI_CHI_DARK_DOT, IDI_ENG_DOT, IDI_ENG_DARK_DOT, IDI_SIMP_DOT, IDI_SIMP_DARK_DOT]

/-- What the icon tells of an open keyboard: the language, the output unless it is English, and
whether there is a new version. -/
theorem langIconId_tells {theme : WindowsTheme} {langMode : TsfLangMode}
    (htheme : theme ≠ .unknown) (hopen : langMode.isDisabled = false) (simp dot : Bool) :
    (langIconId theme langMode simp dot ∈ englishIcons ↔ langMode = .english) ∧
      (langIconId theme langMode simp dot ∈ simplifiedIcons ↔
        langMode = .chinese ∧ simp = true) ∧
      (langIconId theme langMode simp dot ∈ dotIcons ↔ dot = true) := by
  cases langMode with
  | disabledChinese | disabledEnglish => cases hopen
  | chinese | english =>
    cases theme with
    | unknown => exact absurd rfl htheme
    | light | dark => cases simp <;> cases dot <;> decide

/-! ## Buttons -/

def TF_LBI_STATUS_HIDDEN : UInt32 := 0x1
def TF_LBI_STATUS_DISABLED : UInt32 := 0x2

structure LangBarButton where
  icon : UInt32
  status : UInt32
  deriving DecidableEq

/-- What `set_icon` meets: the old icon can be destroyed, and the sinks can be told. -/
structure SetIconEnv where
  destroyed : Bool
  sinks : Bool

namespace LangBarButton

/-- `set_icon`. -/
def setIcon (env : SetIconEnv) (icon : UInt32) (b : LangBarButton) :
    Except Fault Unit × LangBarButton :=
  if env.destroyed then
    (if env.sinks then .ok () else .error .error, { b with icon := icon })
  else (.error .error, b)

/-- `set_enabled`; `sinks` says whether the sinks can be told. -/
def setEnabled (sinks enabled : Bool) (b : LangBarButton) : Except Fault Unit × LangBarButton :=
  (if sinks then .ok () else .error .error,
    { b with status :=
        if enabled then b.status &&& ~~~TF_LBI_STATUS_DISABLED
        else b.status ||| TF_LBI_STATUS_DISABLED })

/-- `ITfLangBarItem::Show`. -/
def setShown (sinks fshow : Bool) (b : LangBarButton) : Except Fault Unit × LangBarButton :=
  (if sinks then .ok () else .error .error,
    { b with status :=
        if fshow then b.status &&& ~~~TF_LBI_STATUS_HIDDEN
        else b.status ||| TF_LBI_STATUS_HIDDEN })

theorem setIcon_ok {env : SetIconEnv} {icon : UInt32} {b b' : LangBarButton}
    (h : b.setIcon env icon = (.ok (), b')) : b' = { b with icon := icon } := by
  unfold setIcon at h
  split at h
  · exact (Prod.mk.inj h).2.symm
  · cases (Prod.mk.inj h).1

/-- `GetStatus` reports the button disabled. -/
def Disabled (b : LangBarButton) : Prop := b.status &&& TF_LBI_STATUS_DISABLED ≠ 0

/-! ### The bits of the status -/

section Bits

variable {s flag other : UInt32}

theorem or_and_flag (s flag : UInt32) : (s ||| flag) &&& flag = flag := by
  rw [← UInt32.toBitVec_inj]
  ext i hi
  simp only [UInt32.toBitVec_and, UInt32.toBitVec_or, BitVec.getElem_and, BitVec.getElem_or]
  cases s.toBitVec[i] <;> cases flag.toBitVec[i] <;> rfl

theorem andNot_and_flag (s flag : UInt32) : (s &&& ~~~flag) &&& flag = 0 := by
  rw [UInt32.and_assoc, UInt32.not_and_self, UInt32.and_zero]

/-- Two flags have no bit in common. -/
theorem getElem_of_disjoint (h : other &&& flag = 0) {i : Nat} (hi : i < 32) :
    (other.toBitVec[i] && flag.toBitVec[i]) = false := by
  have hbits : other.toBitVec &&& flag.toBitVec = 0#32 := congrArg UInt32.toBitVec h
  have hbit := congrArg (·.getLsbD i) hbits
  simpa [hi] using hbit

theorem or_and_other (s : UInt32) (h : other &&& flag = 0) :
    (s ||| other) &&& flag = s &&& flag := by
  rw [← UInt32.toBitVec_inj]
  ext i hi
  have hbit := getElem_of_disjoint h hi
  simp only [UInt32.toBitVec_and, UInt32.toBitVec_or, BitVec.getElem_and, BitVec.getElem_or]
  rw [Bool.and_or_distrib_right, hbit, Bool.or_false]

theorem andNot_and_other (s : UInt32) (h : other &&& flag = 0) :
    (s &&& ~~~other) &&& flag = s &&& flag := by
  rw [← UInt32.toBitVec_inj]
  ext i hi
  have hbit := getElem_of_disjoint h hi
  simp only [UInt32.toBitVec_and, UInt32.toBitVec_not, BitVec.getElem_and, BitVec.getElem_not]
  revert hbit
  cases other.toBitVec[i] <;> cases flag.toBitVec[i] <;> simp

end Bits

theorem disabled_setEnabled (sinks enabled : Bool) (b : LangBarButton) :
    (b.setEnabled sinks enabled).2.Disabled ↔ enabled = false := by
  cases enabled with
  | false =>
    have hset := or_and_flag b.status TF_LBI_STATUS_DISABLED
    refine iff_of_true ?_ rfl
    show (b.status ||| TF_LBI_STATUS_DISABLED) &&& TF_LBI_STATUS_DISABLED ≠ 0
    rw [hset]
    decide
  | true =>
    have hset := andNot_and_flag b.status TF_LBI_STATUS_DISABLED
    exact iff_of_false (fun hne => hne hset) nofun

/-- TSF may hide a button or show it: it is as disabled as before. -/
theorem disabled_setShown (sinks fshow : Bool) (b : LangBarButton) :
    (b.setShown sinks fshow).2.Disabled ↔ b.Disabled := by
  have hdisjoint : TF_LBI_STATUS_HIDDEN &&& TF_LBI_STATUS_DISABLED = 0 := by decide
  unfold Disabled
  cases fshow with
  | false => exact iff_of_eq (congrArg (· ≠ 0) (or_and_other b.status hdisjoint))
  | true => exact iff_of_eq (congrArg (· ≠ 0) (andNot_and_other b.status hdisjoint))

end LangBarButton

/-! ## The bar and its menu -/

/-- The buttons that change, and the marks of the popup menu. -/
structure LangBar where
  switchLang : LangBarButton
  imeMode : LangBarButton
  switchShape : LangBarButton
  /-- `ID_OUTPUT_SIMP_CHINESE` is checked -/
  checkSimp : Bool
  /-- `ID_SWITCH_SHAPE` is checked -/
  checkShape : Bool
  /-- `ID_CHECK_NEW_VER` is enabled -/
  enableNewVer : Bool

/-- The buttons that TSF may hide. -/
inductive BarButton where
  | switchLang | imeMode | switchShape

/-- What `update_lang_buttons` meets. -/
structure ButtonsEnv where
  systemUsesLightTheme : Option UInt32
  appsUseLightTheme : Option UInt32
  /-- the icon of the language can be loaded -/
  langIcon : Bool
  switchLang : SetIconEnv
  imeMode : SetIconEnv
  /-- the sinks of the systray button can be told of its status -/
  imeStatus : Bool
  /-- the icon of the character form can be loaded -/
  shapeIcon : Bool
  switchShape : SetIconEnv

def ButtonsEnv.theme (env : ButtonsEnv) : WindowsTheme :=
  .detectTheme env.systemUsesLightTheme env.appsUseLightTheme

namespace LangBar

/-- `update_lang_buttons`, after the buttons of the language. -/
def updateShape (env : ButtonsEnv) (v : BarView) (bar : LangBar) : Except Fault Unit × LangBar :=
  if env.shapeIcon then
    match bar.switchShape.setIcon env.switchShape (shapeIconId v.characterForm) with
    | (.error e, b) => (.error e, { bar with switchShape := b })
    | (.ok (), b) =>
      (.ok (), { bar with
        switchShape := b
        checkShape := v.characterForm = .fullwidth
        enableNewVer := !v.updateInfoUrl.isEmpty })
  else (.error .error, bar)

/-- `update_lang_buttons`. -/
def updateLangButtons (env : ButtonsEnv) (v : BarView) (bar : LangBar) :
    Except Fault Unit × LangBar :=
  let iconId := getLangIconId env.theme v
  if env.langIcon then
    match bar.switchLang.setIcon env.switchLang iconId with
    | (.error e, b) => (.error e, { bar with switchLang := b })
    | (.ok (), b) =>
      let bar := { bar with switchLang := b }
      match bar.imeMode.setIcon env.imeMode iconId with
      | (.error e, b) => (.error e, { bar with imeMode := b })
      | (.ok (), b) =>
        -- that the status cannot be told is ignored
        let b := (b.setEnabled env.imeStatus !v.langMode.isDisabled).2
        { bar with imeMode := b }.updateShape env v
  else (.error .error, bar)

/-- TSF hides a button or shows it. -/
def setShown (button : BarButton) (sinks fshow : Bool) (bar : LangBar) : LangBar :=
  match button with
  | .switchLang => { bar with switchLang := (bar.switchLang.setShown sinks fshow).2 }
  | .imeMode => { bar with imeMode := (bar.imeMode.setShown sinks fshow).2 }
  | .switchShape => { bar with switchShape := (bar.switchShape.setShown sinks fshow).2 }

/-- The bar shows `v`, in icons for the theme. -/
structure Shows (theme : WindowsTheme) (v : BarView) (bar : LangBar) : Prop where
  switchLang : bar.switchLang.icon = getLangIconId theme v
  imeMode : bar.imeMode.icon = getLangIconId theme v
  enabled : bar.imeMode.Disabled ↔ v.langMode.isDisabled = true
  switchShape : bar.switchShape.icon = shapeIconId v.characterForm
  checkShape : bar.checkShape = decide (v.characterForm = .fullwidth)
  enableNewVer : bar.enableNewVer = !v.updateInfoUrl.isEmpty

section Update

variable {env : ButtonsEnv} {v : BarView} {bar bar' : LangBar}

theorem updateShape_ok (h : bar.updateShape env v = (.ok (), bar')) :
    bar' = { bar with
      switchShape := { bar.switchShape with icon := shapeIconId v.characterForm }
      checkShape := v.characterForm = .fullwidth
      enableNewVer := !v.updateInfoUrl.isEmpty } := by
  unfold updateShape at h
  split at h
  · split at h
    · cases (Prod.mk.inj h).1
    · next b hb =>
      obtain rfl := LangBarButton.setIcon_ok hb
      exact (Prod.mk.inj h).2.symm
  · cases (Prod.mk.inj h).1

/-- **An update that succeeds shows the view**, whatever the bar showed before. -/
theorem updateLangButtons_shows (h : bar.updateLangButtons env v = (.ok (), bar')) :
    bar'.Shows env.theme v := by
  unfold updateLangButtons at h
  dsimp only at h
  split at h
  · split at h
    · cases (Prod.mk.inj h).1
    · next b hlang =>
      obtain rfl := LangBarButton.setIcon_ok hlang
      split at h
      · cases (Prod.mk.inj h).1
      · next b hmode =>
        obtain rfl := LangBarButton.setIcon_ok hmode
        obtain rfl := updateShape_ok h
        refine ⟨rfl, rfl, ?_, rfl, rfl, rfl⟩
        refine (LangBarButton.disabled_setEnabled env.imeStatus _ _).trans ?_
        rw [Bool.not_eq_false']
  · cases (Prod.mk.inj h).1

theorem updateShape_checkSimp (env : ButtonsEnv) (v : BarView) (bar : LangBar) :
    (bar.updateShape env v).2.checkSimp = bar.checkSimp := by
  unfold updateShape
  split
  · split <;> rfl
  · rfl

/-- The mark of the output is not its business. -/
theorem updateLangButtons_checkSimp (env : ButtonsEnv) (v : BarView) (bar : LangBar) :
    (bar.updateLangButtons env v).2.checkSimp = bar.checkSimp := by
  unfold updateLangButtons
  dsimp only
  split
  · split
    · rfl
    · split
      · rfl
      · exact updateShape_checkSimp env v _
  · rfl

theorem Shows.setShown {theme : WindowsTheme} (h : bar.Shows theme v) (button : BarButton)
    (sinks fshow : Bool) : (bar.setShown button sinks fshow).Shows theme v := by
  cases button with
  | switchLang | switchShape =>
    exact ⟨h.switchLang, h.imeMode, h.enabled, h.switchShape, h.checkShape, h.enableNewVer⟩
  | imeMode =>
    have hdisabled := LangBarButton.disabled_setShown sinks fshow bar.imeMode
    exact ⟨h.switchLang, h.imeMode, hdisabled.trans h.enabled, h.switchShape, h.checkShape,
      h.enableNewVer⟩

end Update

end LangBar

end ChewingTsf
