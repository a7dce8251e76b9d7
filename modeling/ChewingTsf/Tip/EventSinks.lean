import Mathlib.Data.List.Induction
import Mathlib.Logic.Function.Basic
import ChewingTsf.Lib.Wp

/-!
# Event sinks (`Activate` and `Deactivate` in tip/src/text_service/mod.rs)

`Activate` registers five sinks with TSF. It gives up when a sink of the thread manager or
the one of the open/close compartment is refused, but only logs it when the function
provider or the key event sink is. `Deactivate` takes the sinks back in the same order and
gives up at the first one that is not registered, so that a refusal that was only logged
leaves every sink behind it registered (`Activation.Clear.noneRegistered_pair_iff`).
-/

namespace ChewingTsf

/-! ## Where sinks are registered -/

/-- What takes sinks: by cookie, or one for each client id. -/
inductive SinkSource where
  /-- `ITfSource` of the thread manager: thread manager events and thread focus -/
  | threadMgr
  /-- `ITfSourceSingle` of the thread manager: the function provider -/
  | functionProvider
  /-- `ITfKeystrokeMgr` -/
  | keyEvent
  /-- `ITfSource` of the compartment for open/close -/
  | openclose
  deriving DecidableEq

def TF_INVALID_COOKIE : UInt32 := 0xFFFFFFFF

/-- `TextService`, as far as activation goes, with the sinks that TSF holds for it: the
cookies and client ids they are registered under. -/
structure Activation where
  registered : SinkSource → List UInt32
  /-- `inner` holds a `ChewingTextService` -/
  inner : Bool
  tid : UInt32
  threadCookies : List UInt32
  keyboardOpencloseCookie : UInt32

/-- `TextService::new`. -/
def Activation.new : Activation := ⟨fun _ => [], false, 0, [], TF_INVALID_COOKIE⟩

def Activation.setRegistered (src : SinkSource) (keys : List UInt32) (a : Activation) :
    Activation :=
  { a with registered := Function.update a.registered src keys }

abbrev SinkM := EStateM PUnit Activation

namespace SinkM

/-- An `Advise` call that registers a sink under `key`, or fails: under a key that is in use
none can be registered. -/
def advise (src : SinkSource) (key : Option UInt32) : SinkM UInt32 := do
  let a ← get
  match key with
  | none => throw ⟨⟩
  | some key =>
    if key ∈ a.registered src then throw ⟨⟩
    else do
      modify (Activation.setRegistered src (key :: a.registered src))
      return key

/-- An `Unadvise` call: it fails if no sink is registered under `key`. -/
def unadvise (src : SinkSource) (key : UInt32) : SinkM PUnit := do
  let a ← get
  if key ∈ a.registered src then
    modify (Activation.setRegistered src ((a.registered src).erase key))
  else throw ⟨⟩

/-- `if let Err(error) = ..`: an error is only logged. -/
def logged (m : SinkM UInt32) : SinkM PUnit :=
  tryCatch (do let _ ← m) fun _ => pure ⟨⟩

end SinkM

open SinkM

/-- What `Activate` meets: `new` and the `Advise` calls, each with the key it registers its
sink under if it succeeds. -/
structure AdviseEnv where
  tid : UInt32
  /-- `ChewingTextService::new` succeeds -/
  new : Bool
  threadMgr : Option UInt32
  threadFocus : Option UInt32
  functionProvider : Bool
  keyEvent : Bool
  openclose : Option UInt32

/-- `Activate`. -/
def SinkM.activate (env : AdviseEnv) : SinkM PUnit := do
  modify fun a => { a with tid := env.tid }
  if env.new then do
    modify fun a => { a with inner := true }
    let cookie ← advise .threadMgr env.threadMgr
    modify fun a => { a with threadCookies := a.threadCookies ++ [cookie] }
    let cookie ← advise .threadMgr env.threadFocus
    modify fun a => { a with threadCookies := a.threadCookies ++ [cookie] }
    logged (advise .functionProvider (if env.functionProvider then some env.tid else none))
    logged (advise .keyEvent (if env.keyEvent then some env.tid else none))
    let cookie ← advise .openclose env.openclose
    modify fun a => { a with keyboardOpencloseCookie := cookie }
  else throw ⟨⟩

/-- `Deactivate`. -/
def SinkM.deactivate : SinkM PUnit := do
  let a ← get
  modify fun a => { a with threadCookies := [] }
  if a.inner then do
    modify fun a => { a with inner := false }
    a.threadCookies.forM (unadvise .threadMgr)
    unadvise .functionProvider a.tid
    unadvise .keyEvent a.tid
    unadvise .openclose a.keyboardOpencloseCookie
  else pure ⟨⟩

/-! ## Rules for the calls -/

section Rules

variable {post : UInt32 → Activation → Prop} {posted : PUnit → Activation → Prop}
  {exc : PUnit → Activation → Prop} {a : Activation} {src : SinkSource} {key : UInt32}

namespace Activation

@[simp] theorem setRegistered_registered (keys : List UInt32) :
    (a.setRegistered src keys).registered src = keys :=
  Function.update_self ..

@[simp] theorem setRegistered_registered_of_ne {src' : SinkSource} (keys : List UInt32)
    (h : src' ≠ src) : (a.setRegistered src keys).registered src' = a.registered src' :=
  Function.update_of_ne h ..

@[simp] theorem setRegistered_inner (keys : List UInt32) :
    (a.setRegistered src keys).inner = a.inner := rfl

@[simp] theorem setRegistered_tid (keys : List UInt32) :
    (a.setRegistered src keys).tid = a.tid := rfl

@[simp] theorem setRegistered_threadCookies (keys : List UInt32) :
    (a.setRegistered src keys).threadCookies = a.threadCookies := rfl

@[simp] theorem setRegistered_keyboardOpencloseCookie (keys : List UInt32) :
    (a.setRegistered src keys).keyboardOpencloseCookie = a.keyboardOpencloseCookie := rfl

@[simp] theorem setRegistered_setRegistered (keys keys' : List UInt32) :
    (a.setRegistered src keys).setRegistered src keys' = a.setRegistered src keys' := by
  simp [setRegistered]

theorem setRegistered_eq_self (keys : List UInt32) (h : a.registered src = keys) :
    a.setRegistered src keys = a := by
  subst h
  simp [setRegistered]

end Activation

namespace SinkM

theorem wp_advise_none : wp (advise src none) post exc a ↔ exc ⟨⟩ a := Iff.rfl

theorem wp_advise_mem (h : key ∈ a.registered src) :
    wp (advise src (some key)) post exc a ↔ exc ⟨⟩ a := by
  simp only [advise, wp_bind, wp_get, wp_ite, h, if_true, wp_throw]

theorem wp_advise_some (h : key ∉ a.registered src) :
    wp (advise src (some key)) post exc a ↔
      post key (a.setRegistered src (key :: a.registered src)) := by
  simp only [advise, wp_bind, wp_get, wp_ite, h, if_false, wp_modify, wp_pure]

theorem wp_unadvise_mem (h : key ∈ a.registered src) :
    wp (unadvise src key) posted exc a ↔
      posted ⟨⟩ (a.setRegistered src ((a.registered src).erase key)) := by
  simp only [unadvise, wp_bind, wp_get, wp_ite, h, if_true, wp_modify]

theorem wp_unadvise_not_mem (h : key ∉ a.registered src) :
    wp (unadvise src key) posted exc a ↔ exc ⟨⟩ a := by
  simp only [unadvise, wp_bind, wp_get, wp_ite, h, if_false, wp_throw]

/-- The loop over the thread cookies takes back every sink that it has a cookie for. -/
theorem wp_unadvise_forM {cookies : List UInt32} (h : (a.registered src).Perm cookies) :
    wp (cookies.forM (unadvise src)) posted exc a ↔ posted ⟨⟩ (a.setRegistered src []) := by
  induction cookies generalizing a with
  | nil =>
    rw [Activation.setRegistered_eq_self [] h.eq_nil]
    exact wp_pure
  | cons cookie cookies ih =>
    have hmem : cookie ∈ a.registered src := h.mem_iff.mpr List.mem_cons_self
    have hrest : ((a.registered src).erase cookie).Perm cookies := by
      simpa using h.erase cookie
    show wp (unadvise src cookie >>= fun _ => cookies.forM (unadvise src)) posted exc a ↔ _
    rw [wp_bind, wp_unadvise_mem hmem, ih (by simpa using hrest)]
    simp

/-- A sink that is refused changes nothing, and one that is not is registered. -/
theorem wp_logged_advise {c : Bool} (h : a.registered src = []) :
    wp (logged (advise src (if c then some key else none))) posted exc a ↔
      posted ⟨⟩ (a.setRegistered src (if c then [key] else [])) := by
  rw [logged, wp_tryCatch, wp_bind]
  cases c with
  | true =>
    rw [if_pos rfl, wp_advise_some (by simp [h]), h]
    rfl
  | false =>
    rw [if_neg Bool.false_ne_true, wp_advise_none, if_neg Bool.false_ne_true,
      Activation.setRegistered_eq_self [] h]
    rfl

/-- What a single sink leaves: its source is empty afterwards, or it was before. -/
theorem wp_unadvise_single {c : Bool} (h : a.registered src = if c then [key] else []) :
    wp (unadvise src key) posted exc a ↔
      if c then posted ⟨⟩ (a.setRegistered src []) else exc ⟨⟩ a := by
  cases c with
  | true => rw [wp_unadvise_mem (by simp [h])]; simp [h]
  | false => rw [wp_unadvise_not_mem (by simp [h])]; simp

end SinkM

end Rules

namespace Activation

variable {a : Activation} {env : AdviseEnv}

/-- The state in which `m` ends; `Activate` and `Deactivate` log the error and return
`Ok`. -/
def after (m : SinkM PUnit) (a : Activation) : Activation :=
  match m a with
  | .ok _ a | .error _ a => a

theorem after_iff_wp {m : SinkM PUnit} {p : Activation → Prop} :
    p (a.after m) ↔ wp m (fun _ => p) (fun _ => p) a := by
  unfold after wp
  cases m a <;> rfl

/-- `Activate` and the `Deactivate` that goes with it. -/
def pair (a : Activation) (env : AdviseEnv) : Activation :=
  (a.after (activate env)).after deactivate

/-- No sink is registered. -/
def NoneRegistered (a : Activation) : Prop := ∀ src, a.registered src = []

/-! ## One activation -/

/-- The sinks of an activation that got as far as registering: those of the thread manager
under the cookies kept, the others as far as they were not refused. -/
structure Holds (a : Activation) (provider keyEvent : Bool) (compartment : Option UInt32) :
    Prop where
  inner : a.inner = true
  threadMgr : (a.registered .threadMgr).Perm a.threadCookies
  functionProvider : a.registered .functionProvider = if provider then [a.tid] else []
  keyEvent : a.registered .keyEvent = if keyEvent then [a.tid] else []
  openclose : a.registered .openclose = compartment.toList
  cookie : ∀ key ∈ compartment, a.keyboardOpencloseCookie = key

theorem noneRegistered_iff_forall :
    a.NoneRegistered ↔ a.registered .threadMgr = [] ∧ a.registered .functionProvider = [] ∧
      a.registered .keyEvent = [] ∧ a.registered .openclose = [] := by
  constructor
  · intro h
    exact ⟨h _, h _, h _, h _⟩
  · rintro ⟨hmgr, hprovider, hkey, hopenclose⟩ src
    cases src <;> assumption

/-- `Deactivate` forgets the service and its thread cookies, then takes the sinks back one
after the other, up to the first that is not there. -/
theorem Holds.noneRegistered_deactivate_iff {provider keyEvent : Bool}
    {compartment : Option UInt32} (h : a.Holds provider keyEvent compartment) :
    (a.after deactivate).NoneRegistered ↔
      (provider = false → keyEvent = false ∧ compartment = none) ∧
        (keyEvent = false → compartment = none) := by
  rw [after_iff_wp (p := NoneRegistered), deactivate, wp_bind, wp_get, wp_bind, wp_modify,
    if_pos h.inner, wp_bind, wp_modify, wp_bind, wp_unadvise_forM (by exact h.threadMgr),
    wp_bind, wp_unadvise_single (c := provider) (by simpa using h.functionProvider)]
  cases provider with
  | false =>
    -- the function provider is not there: what stands behind it stays
    have hkey := h.keyEvent
    have hopenclose := h.openclose
    have hprovider := h.functionProvider
    simpa [noneRegistered_iff_forall, hkey, hopenclose, hprovider] using
      fun _ hnone _ => hnone
  | true =>
    rw [if_pos rfl, wp_bind, wp_unadvise_single (c := keyEvent) (by simpa using h.keyEvent)]
    cases keyEvent with
    | false =>
      have hkey := h.keyEvent
      have hopenclose := h.openclose
      simp [noneRegistered_iff_forall, hkey, hopenclose]
    | true =>
      rw [if_pos rfl]
      cases compartment with
      | none =>
        rw [wp_unadvise_not_mem (by simp [h.openclose])]
        simp [noneRegistered_iff_forall, h.openclose]
      | some key =>
        have hcookie : a.keyboardOpencloseCookie = key := h.cookie key rfl
        rw [wp_unadvise_mem (by simp [h.openclose, hcookie])]
        simp [noneRegistered_iff_forall, h.openclose, hcookie]

/-- `Deactivate` has taken the service and its thread cookies. -/
structure Forgotten (a : Activation) : Prop where
  inner : a.inner = false
  threadCookies : a.threadCookies = []

theorem Forgotten.unadvise {src : SinkSource} {key : UInt32} (h : a.Forgotten) :
    wp (unadvise src key) (fun _ => Forgotten) (fun _ => Forgotten) a := by
  by_cases hmem : key ∈ a.registered src
  · rw [wp_unadvise_mem hmem]
    exact ⟨h.inner, h.threadCookies⟩
  · rw [wp_unadvise_not_mem hmem]
    exact h

theorem Forgotten.bind {m : SinkM PUnit} {k : PUnit → SinkM PUnit}
    (hm : wp m (fun _ => Forgotten) (fun _ => Forgotten) a)
    (hk : ∀ a : Activation, a.Forgotten →
      wp (k ⟨⟩) (fun _ => Forgotten) (fun _ => Forgotten) a) :
    wp (m >>= k) (fun _ => Forgotten) (fun _ => Forgotten) a := by
  rw [wp_bind]
  exact wp_mono hm (fun _ a ha => hk a ha) (fun _ _ ha => ha)

theorem Forgotten.unadvise_forM {cookies : List UInt32} (h : a.Forgotten) :
    wp (cookies.forM (SinkM.unadvise .threadMgr)) (fun _ => Forgotten) (fun _ => Forgotten)
      a := by
  induction cookies generalizing a with
  | nil => exact h
  | cons cookie cookies ih => exact bind h.unadvise fun _ h => ih h

/-- However far `Deactivate` gets, it leaves neither a service nor a thread cookie. -/
theorem after_deactivate_forgotten (a : Activation) : (a.after deactivate).Forgotten := by
  rw [after_iff_wp (p := Forgotten), deactivate, wp_bind, wp_get, wp_bind, wp_modify, wp_ite]
  split
  next =>
    rw [wp_bind, wp_modify]
    refine Forgotten.bind (Forgotten.unadvise_forM ⟨rfl, rfl⟩) fun _ h => ?_
    refine Forgotten.bind h.unadvise fun _ h => ?_
    exact Forgotten.bind h.unadvise fun _ h => h.unadvise
  next hinner => exact ⟨by simpa using hinner, rfl⟩

/-! ## Pairs of `Activate` and `Deactivate` -/

/-- What stands between two activations if all went well. -/
structure Clear (a : Activation) : Prop where
  inner : a.inner = false
  threadCookies : a.threadCookies = []
  sinks : a.NoneRegistered

end Activation

/-- Both sinks of the thread manager are registered, so that `Activate` goes on to the
others. -/
def AdviseEnv.ThreadSinks (env : AdviseEnv) : Prop :=
  ∃ manager focus, env.threadMgr = some manager ∧ env.threadFocus = some focus ∧ manager ≠ focus

/-- No refusal is only logged while a sink that `Deactivate` takes back later is
registered. -/
def AdviseEnv.Balanced (env : AdviseEnv) : Prop :=
  env.new = true → env.ThreadSinks →
    (env.functionProvider = false → env.keyEvent = false ∧ env.openclose = none) ∧
      (env.keyEvent = false → env.openclose = none)

namespace Activation

variable {a : Activation} {env : AdviseEnv}

/-- With its thread sinks registered, `Activate` holds what was not refused. -/
theorem Clear.holds_activate (h : a.Clear) (hnew : env.new = true) (hthread : env.ThreadSinks) :
    (a.after (activate env)).Holds env.functionProvider env.keyEvent env.openclose := by
  obtain ⟨manager, focus, hmanager, hfocus, hne⟩ := hthread
  rw [after_iff_wp (p := fun a => a.Holds env.functionProvider env.keyEvent env.openclose),
    activate, wp_bind, wp_modify, if_pos hnew, wp_bind, wp_modify, wp_bind, hmanager,
    wp_advise_some (by simp [h.sinks _]), wp_bind, wp_modify, wp_bind, hfocus,
    wp_advise_some (by simp [h.sinks _, hne.symm]), wp_bind, wp_modify,
    wp_bind, wp_logged_advise (by simpa using h.sinks _),
    wp_bind, wp_logged_advise (by simpa using h.sinks _), wp_bind]
  cases hopenclose : env.openclose with
  | none =>
    rw [wp_advise_none]
    constructor <;> simp [h.threadCookies, h.sinks _, List.Perm.swap]
  | some key =>
    rw [wp_advise_some (by simp [h.sinks _]), wp_modify]
    constructor <;> simp [h.threadCookies, h.sinks _, List.Perm.swap]

/-- Without both of its thread sinks, `Activate` gives up before the others. -/
theorem Clear.holds_activate_of_not (h : a.Clear) (hnew : env.new = true)
    (hthread : ¬ env.ThreadSinks) : (a.after (activate env)).Holds false false none := by
  rw [after_iff_wp (p := fun a => a.Holds false false none), activate, wp_bind, wp_modify,
    if_pos hnew, wp_bind, wp_modify, wp_bind]
  cases hmanager : env.threadMgr with
  | none =>
    rw [wp_advise_none]
    constructor <;> simp [h.threadCookies, h.sinks _]
  | some manager =>
    rw [wp_advise_some (by simp [h.sinks _]), wp_bind, wp_modify, wp_bind]
    cases hfocus : env.threadFocus with
    | none =>
      rw [wp_advise_none]
      constructor <;> simp [h.threadCookies, h.sinks _]
    | some focus =>
      have heq : focus = manager := by
        by_contra hne
        exact hthread ⟨manager, focus, hmanager, hfocus, Ne.symm hne⟩
      rw [wp_advise_mem (by simp [heq])]
      constructor <;> simp [h.threadCookies, h.sinks _]

theorem pair_forgotten : (a.pair env).Forgotten := after_deactivate_forgotten _

/-- One activation: a sink stays registered exactly if one that stands before it was refused
and that was only logged. -/
theorem Clear.noneRegistered_pair_iff (h : a.Clear) :
    (a.pair env).NoneRegistered ↔ env.Balanced := by
  unfold pair AdviseEnv.Balanced
  by_cases hnew : env.new = true
  · by_cases hthread : env.ThreadSinks
    · rw [(h.holds_activate hnew hthread).noneRegistered_deactivate_iff]
      simp [hnew, hthread]
    · rw [(h.holds_activate_of_not hnew hthread).noneRegistered_deactivate_iff]
      simp [hthread]
  · have hnone : (a.after (activate env)).inner = false ∧
        (a.after (activate env)).NoneRegistered := by
      rw [after_iff_wp (p := fun a => a.inner = false ∧ a.NoneRegistered), activate, wp_bind,
        wp_modify, if_neg hnew, wp_throw]
      exact ⟨h.inner, h.sinks⟩
    rw [after_iff_wp (p := NoneRegistered), deactivate, wp_bind, wp_get, wp_bind, wp_modify,
      if_neg (by simp [hnone.1]), wp_pure]
    exact iff_of_true hnone.2 fun h => absurd h hnew

theorem Clear.pair (h : a.Clear) (hbalanced : env.Balanced) : (a.pair env).Clear :=
  ⟨pair_forgotten.inner, pair_forgotten.threadCookies, h.noneRegistered_pair_iff.mpr hbalanced⟩

theorem clear_new : new.Clear := ⟨rfl, rfl, fun _ => rfl⟩

/-- The state after a series of activations. -/
def afterPairs (envs : List AdviseEnv) : Activation := envs.foldl pair new

@[simp] theorem afterPairs_concat (envs : List AdviseEnv) (env : AdviseEnv) :
    afterPairs (envs ++ [env]) = (afterPairs envs).pair env := by
  simp [afterPairs]

theorem clear_afterPairs {envs : List AdviseEnv} (h : ∀ env ∈ envs, env.Balanced) :
    (afterPairs envs).Clear := by
  induction envs using List.reverseRecOn with
  | nil => exact clear_new
  | append_singleton envs env ih =>
    rw [afterPairs_concat]
    exact (ih fun e he => h e (by simp [he])).pair (h env (by simp))

/-- Every `Deactivate` of a series leaves no sink registered exactly if every `Activate` of
it is balanced. -/
theorem noneRegistered_iff (envs : List AdviseEnv) :
    (∀ done, done <+: envs → (afterPairs done).NoneRegistered) ↔
      ∀ env ∈ envs, env.Balanced := by
  induction envs using List.reverseRecOn with
  | nil => simp [clear_new.sinks, afterPairs]
  | append_singleton envs env ih =>
    constructor
    · intro h
      have hbalanced : ∀ e ∈ envs, e.Balanced :=
        ih.mp fun done hdone => h done (hdone.trans (List.prefix_append ..))
      have hlast := h (envs ++ [env]) List.prefix_rfl
      rw [afterPairs_concat, (clear_afterPairs hbalanced).noneRegistered_pair_iff] at hlast
      simpa [or_imp, forall_and] using ⟨hbalanced, hlast⟩
    · intro h done hdone
      exact (clear_afterPairs fun e he => h e (hdone.subset he)).sinks

/-- The function provider is refused and all else is registered: `Deactivate` takes the
thread sinks back and stops at the function provider. -/
theorem provider_refused :
    ¬ (afterPairs [⟨1, true, some 1, some 2, false, true, some 3⟩]).NoneRegistered := by
  intro h
  have hkey : (afterPairs [⟨1, true, some 1, some 2, false, true, some 3⟩]).registered
      .keyEvent = [1] := by decide
  simp [h .keyEvent] at hkey

end Activation

end ChewingTsf
