import ChewingTsf.Tip.Callbacks
import ChewingTsf.Tip.Typing

/-!
# `key_busy` under the key protocol

TSF tests every key that is pressed or released, and delivers `OnKeyDown` or
`OnKeyUp` only for a key whose test returned `TRUE`. `OnKeyDown` sets `key_busy`,
and only `OnKeyUp` resets it; but `on_test_keyup` never returns `true`
(`onTestKeyup_ne_true`), so `OnKeyUp` is never delivered.
-/

namespace ChewingTsf

open CallM TextService

/-! ## The protocol -/

/-- A virtual-key code. -/
abbrev VirtualKey := UInt16

/-- What happens while a key callback executes. -/
structure Meanwhile (S : Type) where
  arrivals : List (Reentrant S)
  sync : HandlerCall S Unit
  tail : HandlerCall S Unit

def Meanwhile.key {S : Type} (m : Meanwhile S) (pic : Bool) (handler : Handler S Bool) :
    KeyCallback S := ⟨pic, ⟨m.arrivals, handler⟩, m.sync, m.tail⟩

section Protocol

variable {E : Type} [ChewingEditor E] [Keysyms]

/-- What TSF delivers. The handler of `OnKeyDown` is left open. -/
inductive Delivery (E : Type) where
  | testKeyDown (vk : VirtualKey) (pic : Bool) (env : Tip.TestEnv) (ev : Int → KeyboardEvent)
      (m : Meanwhile (Tip E))
  | keyDown (vk : VirtualKey) (pic : Bool) (handler : Handler (Tip E) Bool)
      (m : Meanwhile (Tip E))
  | testKeyUp (vk : VirtualKey) (pic : Bool) (env : Tip.KeyupEnv) (ev : Int → KeyboardEvent)
      (m : Meanwhile (Tip E))
  | keyUp (vk : VirtualKey) (pic : Bool) (env : Tip.KeyupEnv) (ev : Int → KeyboardEvent)
      (m : Meanwhile (Tip E))
  | setFocus (null context : Bool) (arrivals : List (Reentrant (Tip E)))

def Delivery.isKeyDown : Delivery E → Bool
  | keyDown _ _ _ _ => true
  | _ => false

/-- `OnSetFocus`, with its handlers. -/
def focusChange (null context : Bool) : FocusChange (Tip E) where
  null := null
  onKillFocus t := (.ok (), t.onKillFocus context)
  onFocus t := (.ok (), t.onFocus)

/-- The text service, and what TSF remembers of the keys. -/
structure KeyProtocol (E : Type) where
  service : TextService (Tip E)
  /-- pressed and not released yet -/
  down : List VirtualKey
  /-- the last `OnTestKeyDown` of the key returned `TRUE` -/
  mayKeyDown : VirtualKey → Bool
  /-- the last `OnTestKeyUp` of the key returned `TRUE` -/
  mayKeyUp : VirtualKey → Bool

/-- A key callback returns to TSF: with a verdict, or with an error. -/
inductive Answers {S : Type} (m : CallM S Bool) (s : TextService S) :
    Option Bool → TextService S → Prop
  | ok {b : Bool} {t : TextService S} (h : m s = .ok b t) : Answers m s (some b) t
  | failed {t : TextService S} (h : m s = .error .failed t) : Answers m s none t

/-- TSF delivers one callback. -/
inductive KeyProtocolStep (zhconv : Str → Str) :
    KeyProtocol E → Delivery E → KeyProtocol E → Prop
  | testKeyDown {σ : KeyProtocol E} {vk : VirtualKey} {pic : Bool} {env : Tip.TestEnv}
      {ev : Int → KeyboardEvent} {m : Meanwhile (Tip E)} {r : Option Bool}
      {s : TextService (Tip E)}
      (h : Answers (onTestKeyDown (m.key pic (Tip.onTestKeydown env ev))) σ.service r s) :
      KeyProtocolStep zhconv σ (.testKeyDown vk pic env ev m)
        { σ with service := s
                 down := σ.down.insert vk
                 mayKeyDown := Function.update σ.mayKeyDown vk (r == some true) }
  | keyDown {σ : KeyProtocol E} {vk : VirtualKey} {pic : Bool} {handler : Handler (Tip E) Bool}
      {m : Meanwhile (Tip E)} {r : Option Bool} {s : TextService (Tip E)}
      (hmay : σ.mayKeyDown vk = true)
      (h : Answers (onKeyDown (m.key pic handler)) σ.service r s) :
      KeyProtocolStep zhconv σ (.keyDown vk pic handler m)
        { σ with service := s }
  | testKeyUp {σ : KeyProtocol E} {vk : VirtualKey} {pic : Bool} {env : Tip.KeyupEnv}
      {ev : Int → KeyboardEvent} {m : Meanwhile (Tip E)} {r : Option Bool}
      {s : TextService (Tip E)}
      (h : Answers (onTestKeyUp (m.key pic (Tip.onTestKeyup zhconv env ev))) σ.service r s) :
      KeyProtocolStep zhconv σ (.testKeyUp vk pic env ev m)
        { σ with service := s
                 down := σ.down.filter (· ≠ vk)
                 mayKeyUp := Function.update σ.mayKeyUp vk (r == some true) }
  | keyUp {σ : KeyProtocol E} {vk : VirtualKey} {pic : Bool} {env : Tip.KeyupEnv}
      {ev : Int → KeyboardEvent} {m : Meanwhile (Tip E)} {r : Option Bool}
      {s : TextService (Tip E)} (hmay : σ.mayKeyUp vk = true)
      (h : Answers (onKeyUp (m.key pic (Tip.onKeyup zhconv env ev))) σ.service r s) :
      KeyProtocolStep zhconv σ (.keyUp vk pic env ev m)
        { σ with service := s }
  | setFocus {σ : KeyProtocol E} {null context : Bool} {arrivals : List (Reentrant (Tip E))}
      {s : TextService (Tip E)}
      (h : CallbackStep σ.service (.setFocus arrivals (focusChange null context)) s) :
      KeyProtocolStep zhconv σ (.setFocus null context arrivals) { σ with service := s }

/-- Activated, with no key pressed. -/
def KeyProtocol.start (t : Tip E) : KeyProtocol E :=
  ⟨.activated t, [], fun _ => false, fun _ => false⟩

end Protocol

/-! ## What the callbacks do to `key_busy` -/

section Service

variable {S : Type} {s t : TextService S} {r : Option Bool} {b : Bool}

/-- No callback executes, there is a service, and `key_busy` is `keyBusy`. -/
structure TextService.Ready (keyBusy : Bool) (s : TextService S) : Prop where
  flag : s.inner.flag = .unused
  filled : s.inner.value.isSome
  keyBusy : s.keyBusy = keyBusy

theorem TextService.Ready.of_outcome {d c tail : Bool} (h : s.Ready b) (ho : Outcome d c tail s t) :
    t.Ready b :=
  ⟨ho.flag.trans h.flag, ho.filled.trans h.filled, ho.keyBusy.trans h.keyBusy⟩

theorem Answers.outcome {d c tail : Bool} {m : CallM S Bool} (h : Answers m s r t)
    (hm : Meets d c tail m s) : Outcome d c tail s t := by
  unfold Meets wp at hm
  cases h with
  | ok hok =>
    rw [hok] at hm
    exact hm
  | failed hfailed =>
    rw [hfailed] at hm
    exact hm.1 rfl

theorem TextService.Ready.testKeyDown {k : KeyCallback S} (h : s.Ready b)
    (ha : Answers (onTestKeyDown k) s r t) : t.Ready b :=
  h.of_outcome (ha.outcome (meets_onTestKeyDown h.flag k))

theorem TextService.Ready.testKeyUp {k : KeyCallback S} (h : s.Ready b)
    (ha : Answers (onTestKeyUp k) s r t) : t.Ready b :=
  h.of_outcome (ha.outcome (meets_onTestKeyUp h.flag k))

/-- `OnKeyDown` sets it, whatever becomes of the key. -/
theorem TextService.Ready.keyDown {k : KeyCallback S} (h : s.Ready b)
    (ha : Answers (onKeyDown k) s r t) : t.Ready true := by
  have hset : Ready true { s with keyBusy := true } := ⟨h.flag, h.filled, rfl⟩
  have htest : Answers (onTestKeyDown k) { s with keyBusy := true } r t := by
    cases ha with
    | ok hok => exact .ok hok
    | failed hfailed => exact .failed hfailed
  exact hset.testKeyDown htest

theorem TextService.Ready.callback {c : Callback S} (h : s.Ready b) (hstep : CallbackStep s c t)
    (hkeeps : (c.entered s).keyBusy = s.keyBusy) : t.Ready b := by
  have hentered : (c.entered s).Ready b := ⟨h.flag, h.filled, hkeeps.trans h.keyBusy⟩
  exact hentered.of_outcome (Callback.leaves_of_step h.flag hstep)

/-- `OnTestKeyUp` returns `TRUE` only if its handler does. -/
theorem handler_of_onTestKeyUp {k : KeyCallback S} (h : s.Ready b)
    (hanswer : Answers (onTestKeyUp k) s (some true) t) :
    ∃ ts, (k.call.handler ts).1 = .ok true := by
  have hwp : wp (onTestKeyUp k) (fun verdict _ => verdict = true →
      ∃ ts, (k.call.handler ts).1 = .ok true) (fun _ _ => True) s := by
    obtain ⟨ts, hts⟩ := Option.isSome_iff_exists.mp h.filled
    unfold onTestKeyUp
    rw [wp_bind]
    refine wp_mono (wp_behindGuard h.flag hts k.pic k.call.arrivals k.call.handler)
      (fun v t ht => ?_) fun _ _ _ => trivial
    obtain ⟨-, -, -, a, rfl, hok⟩ := ht
    dsimp only
    rw [wp_bind]
    refine wp_of_forall (fun _ t => ?_) fun _ _ => trivial
    rw [wp_bind]
    refine wp_of_forall (fun _ t => ?_) fun _ _ => trivial
    exact fun ha => ⟨ts, by rw [hok, ha]⟩
  unfold wp at hwp
  cases hanswer with
  | ok hok =>
    rw [hok] at hwp
    exact hwp rfl

end Service

section Runs

variable {E : Type} [ChewingEditor E] [Keysyms]

/-- A key-up is never claimed. -/
theorem Tip.onTestKeyup_ne_true (zhconv : Str → Str) (env : Tip.KeyupEnv)
    (ev : Int → KeyboardEvent) (t : Tip E) : (t.onTestKeyup zhconv env ev).1 ≠ .ok true := by
  unfold Tip.onTestKeyup Tip.onKeyup
  split
  · exact nofun
  · dsimp only
    split
    · exact nofun
    · split <;> exact nofun

/-! ## Whole runs -/

omit [ChewingEditor E] [Keysyms] in
/-- Where `OnSetFocus` with a null focus leaves the service. -/
theorem setFocus_value {s : TextService (Tip E)} {t : Tip E} {b : Bool} (h : s.Ready b)
    (hv : s.inner.value = some t) (context : Bool) :
    ((Callback.setFocus [] (focusChange true context)).result s).2.inner.value
      = some (if b then t else t.onKillFocus context) := by
  have hwp : wp (Callback.setFocus [] (focusChange true context)).run
      (fun _ u => u.inner.value = some (if b then t else t.onKillFocus context))
      (fun _ u => u.inner.value = some (if b then t else t.onKillFocus context)) s := by
    unfold Callback.run Callback.body onSetFocus
    rw [wp_bind, wp_modify, wp_bind, wp_get, wp_ite]
    split
    · next hbusy =>
      -- the early return
      rw [← h.keyBusy, if_pos (by exact hbusy)]
      exact hv
    · next hbusy =>
      rw [← h.keyBusy, if_neg (by exact hbusy)]
      unfold behindGuard
      rw [wp_bind, wp_bind, wp_borrowMut_of_unused (by exact h.flag)]
      simp only [hv]
      rw [wp_bind, wp_holding, if_pos trivial, wp_invoke]
      rfl
  unfold wp at hwp
  unfold Callback.result
  cases hr : (Callback.setFocus [] (focusChange true context)).run s <;> rw [hr] at hwp <;>
    exact hwp

/-- **`key_busy` outlives every key.** In every run of the protocol, `key_busy` is
clear exactly if no `OnKeyDown` was delivered; and a focus loss reaches
`on_kill_focus` exactly then. -/
theorem keyBusy_clear_iff {zhconv : Str → Str} {t₀ : Tip E} {σ : KeyProtocol E}
    {ds : List (Delivery E)} (hrun : Run (KeyProtocolStep zhconv) (.start t₀) ds σ) :
    (σ.service.keyBusy = false ↔ ∀ d ∈ ds, d.isKeyDown = false) ∧
    ∃ t, σ.service.inner.value = some t ∧ ∀ context,
      ((Callback.setFocus [] (focusChange true context)).result σ.service).2.inner.value
        = some (if ds.any Delivery.isKeyDown then t else t.onKillFocus context) := by
  have hinv : σ.service.Ready (ds.any Delivery.isKeyDown) ∧ ∀ vk, σ.mayKeyUp vk = false := by
    refine hrun.history (I := fun ds σ => σ.service.Ready (ds.any Delivery.isKeyDown) ∧
      ∀ vk, σ.mayKeyUp vk = false) ⟨⟨rfl, rfl, rfl⟩, fun _ => rfl⟩ ?_
    rintro ds σ d σ' ⟨hready, hup⟩ hstep
    rw [List.any_append, List.any_cons, List.any_nil, Bool.or_false]
    cases hstep with
    | testKeyDown h =>
      simp only [Delivery.isKeyDown, Bool.or_false]
      exact ⟨hready.testKeyDown h, hup⟩
    | keyDown hmay h =>
      -- the only callback that sets `key_busy`
      simp only [Delivery.isKeyDown, Bool.or_true]
      exact ⟨hready.keyDown h, hup⟩
    | @testKeyUp vk pic env ev m r s h =>
      simp only [Delivery.isKeyDown, Bool.or_false]
      refine ⟨hready.testKeyUp h, fun vk' => ?_⟩
      -- the verdict is the handler's, which is never `true`
      have hr : (r == some true) = false := by
        rw [beq_eq_false_iff_ne]
        rintro rfl
        obtain ⟨ts, hts⟩ := handler_of_onTestKeyUp hready h
        exact Tip.onTestKeyup_ne_true zhconv env ev ts hts
      show Function.update σ.mayKeyUp vk (r == some true) vk' = false
      rw [hr]
      by_cases hvk : vk' = vk
      · rw [hvk, Function.update_self]
      · rw [Function.update_of_ne hvk, hup]
    | keyUp hmay h =>
      -- TSF may not deliver it
      rw [hup] at hmay
      cases hmay
    | setFocus h =>
      simp only [Delivery.isKeyDown, Bool.or_false]
      exact ⟨hready.callback h rfl, hup⟩
  obtain ⟨hready, -⟩ := hinv
  obtain ⟨t, ht⟩ := Option.isSome_iff_exists.mp hready.filled
  refine ⟨?_, t, ht, fun context => setFocus_value hready ht context⟩
  rw [hready.keyBusy, List.any_eq_false]
  simp only [Bool.not_eq_true]

end Runs

open ScriptedEditor

/-- Nothing happens meanwhile. -/
def Meanwhile.nothing {S : Type} : Meanwhile S :=
  ⟨[], ⟨[], fun ts => (.ok (), ts)⟩, ⟨[], fun ts => (.ok (), ts)⟩⟩

/-- Backspace with nothing composed is tested, left alone and released. -/
theorem keyBusy_clear_after_backspace :
    ∃ σ, Run (KeyProtocolStep id) (.start (Tip.fresh .queued))
        [.testKeyDown 0x08 true testEnv (fun _ => plainKey keysyms.symBackspace) .nothing,
          .testKeyUp 0x08 true ⟨0, ⟨false, true, true⟩, true⟩
            (fun _ => plainKey keysyms.symBackspace) .nothing] σ ∧
      σ.service.keyBusy = false := by
  obtain ⟨σ, hrun⟩ : ∃ σ, Run (KeyProtocolStep id) (.start (Tip.fresh .queued))
      [.testKeyDown 0x08 true testEnv (fun _ => plainKey keysyms.symBackspace) .nothing,
        .testKeyUp 0x08 true ⟨0, ⟨false, true, true⟩, true⟩
          (fun _ => plainKey keysyms.symBackspace) .nothing] σ :=
    ⟨_, .head (.testKeyDown (.ok rfl)) <| .single (.testKeyUp (.ok rfl))⟩
  exact ⟨σ, hrun, (keyBusy_clear_iff hrun).1.mpr (by decide)⟩

/-- `ㄅ` is tested, pressed and released: its `OnKeyUp` never comes. -/
theorem keyBusy_outlives_bopomofo :
    ¬ ∀ (E : Type) [ChewingEditor E] [Keysyms] (zhconv : Str → Str) (t₀ : Tip E)
        (σ : KeyProtocol E) (ds : List (Delivery E)),
      Run (KeyProtocolStep zhconv) (.start t₀) ds σ → σ.down = [] →
        σ.service.keyBusy = false := by
  intro hclaim
  obtain ⟨σ, hrun, hdown, hbusy⟩ : ∃ σ, Run (KeyProtocolStep id) (.start (Tip.fresh .queued))
      [.testKeyDown 0x31 true testEnv (fun _ => plainKey ⟨0x31⟩) .nothing,
        .keyDown 0x31 true (fun t => ((key (absorbed ['ㄅ'])).processed t).deliverKey id
          (key (absorbed ['ㄅ'])).env none) .nothing,
        .testKeyUp 0x31 true ⟨0, ⟨false, true, true⟩, true⟩ (fun _ => plainKey ⟨0x31⟩) .nothing]
      σ ∧ σ.down = [] ∧ σ.service.keyBusy = true :=
    ⟨_, .head (.testKeyDown (.ok rfl)) <| .head (.keyDown rfl (.ok rfl)) <|
      .single (.testKeyUp (.ok rfl)), rfl, rfl⟩
  rw [hclaim ScriptedEditor id _ σ _ hrun hdown] at hbusy
  cases hbusy

end ChewingTsf
