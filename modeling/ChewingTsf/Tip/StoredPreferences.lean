import ChewingTsf.Core.Registry
import ChewingTsf.Tip.CandidateCursor
import ChewingTsf.Tip.CandidatePage

/-!
# Stored preferences that make the key handling panic

`Config::from_reg` takes any 32-bit number for a setting, and the key handling casts the
settings it uses to unsigned numbers. `sel_key_type` then indexes the six strings of
`SEL_KEYS`, in `update_candidates` and in `map_sel_key`; `cand_per_page` is the length to
which a page is truncated, and with 0 the cursor of the candidate list has no item to be
on. `cand_per_row` is compared before it is subtracted and never makes the list panic.
-/

namespace ChewingTsf

open ChewingEditor

/-! ## What is loaded -/

section Load

variable [TypedReads]

theorem regGetI32_isI32 {key : RegKey} {name : String} {value : Int}
    (h : regGetI32 key name = .ok value) : IsI32 value := by
  unfold regGetI32 at h
  cases hread : key.read TypedReads.getU32 name with
  | error e =>
    rw [hread] at h
    cases h
  | ok v =>
    rw [hread] at h
    cases h
    exact ⟨Int32.le_toInt _, Int32.toInt_lt _⟩

/-- A setting that is overridden by a number of the registry. -/
theorem ChewingTsfConfig.isI32_ifOk (f : ChewingTsfConfig → Int) {cfg : ChewingTsfConfig}
    {key : RegKey} {name : String} {set : ChewingTsfConfig → Int → ChewingTsfConfig}
    (hset : ∀ value, f (set cfg value) = value) (h : IsI32 (f cfg)) :
    IsI32 (f (cfg.ifOk (regGetI32 key name) set)) := by
  cases hread : regGetI32 key name with
  | error e => exact h
  | ok value =>
    rw [ifOk_ok, hset]
    exact regGetI32_isI32 hread

theorem ChewingTsfConfig.load_selKeyType (key : RegKey) : IsI32 (load key).selKeyType := by
  simp only [load, ifOk_frame selKeyType, implies_true]
  refine isI32_ifOk selKeyType (fun _ => rfl) ?_
  simp only [ifOk_frame selKeyType, implies_true]
  decide

theorem ChewingTsfConfig.load_candPerPage (key : RegKey) : IsI32 (load key).candPerPage := by
  simp only [load, ifOk_frame candPerPage, implies_true]
  refine isI32_ifOk candPerPage (fun _ => rfl) ?_
  simp only [ifOk_frame candPerPage, implies_true]
  decide

end Load

theorem i32AsU64_lt_six_iff {i : Int} (h : IsI32 i) : i32AsU64 i < 6 ↔ 0 ≤ i ∧ i < 6 := by
  obtain ⟨hlo, hhi⟩ := h
  unfold i32AsU64
  omega

theorem i32AsU64_eq_zero_iff {i : Int} (h : IsI32 i) : i32AsU64 i = 0 ↔ i = 0 := by
  obtain ⟨hlo, hhi⟩ := h
  unfold i32AsU64
  omega

/-! ## The arithmetic of the candidate list, with its panics

The sums cannot overflow 64 bits: a vector has fewer than 2^63 items, and `cand_per_row`
is a `u32`. -/

/-- `a - b` on `usize`: `none` if it overflows. -/
def usizeSub (a b : Nat) : Option Nat := if b ≤ a then some (a - b) else none

/-- `Ord::clamp`: `none` if the bounds are out of order. -/
def usizeClamp (n lo hi : Nat) : Option Nat := if lo ≤ hi then some (max lo (min n hi)) else none

namespace CandidateList

/-- The next item, clamped to the page. -/
def checkedNext (l : CandidateList) : Option Nat := do
  let last ← usizeSub l.model.items.length 1
  usizeClamp (l.model.currentSel + 1) 0 last

/-- Where `filter_key_event` moves the cursor; `none` if it panics. -/
def checkedMoved [KeyTables] (ksym : Keysym) (l : CandidateList) : Option Nat :=
  let sel := l.model.currentSel
  let candPerRow := l.model.candPerRow.toNat
  if l.uiless then
    if ksym = KeyTables.symDown ∨ ksym = KeyTables.symRight then l.checkedNext
    else if ksym = KeyTables.symUp ∨ ksym = KeyTables.symLeft then some (sel - 1)
    else some sel
  else if ksym = KeyTables.symUp then if candPerRow ≤ sel then usizeSub sel candPerRow else some sel
  else if ksym = KeyTables.symDown then
    if sel + candPerRow < l.model.items.length then some (sel + candPerRow) else some sel
  else if ksym = KeyTables.symLeft then some (if 1 < candPerRow then sel - 1 else sel)
  else if ksym = KeyTables.symRight then if 1 < candPerRow then l.checkedNext else some sel
  else some sel

theorem checkedNext_of_onPage {l : CandidateList} (h : l.OnPage) :
    l.checkedNext = some (min (l.model.currentSel + 1) l.lastItem) := by
  have hpos : 1 ≤ l.model.items.length := Nat.one_le_of_lt h
  rw [checkedNext, usizeSub, if_pos hpos, lastItem_of_onPage h]
  show usizeClamp _ 0 _ = _
  rw [usizeClamp, if_pos (Nat.zero_le _), Nat.zero_max]

/-- With the cursor on the page no key panics. -/
theorem checkedMoved_of_onPage [KeyTables] {l : CandidateList} (h : l.OnPage) (ksym : Keysym) :
    l.checkedMoved ksym = some (l.moved ksym) := by
  unfold checkedMoved moved
  dsimp only
  rw [checkedNext_of_onPage h]
  split_ifs with _ _ _ _ hguard
  all_goals first | rfl | exact if_pos hguard

/-- Neither a key nor the use of the current phrase panics. -/
structure KeySafe [KeyTables] (l : CandidateList) : Prop where
  moved : ∀ ksym, (l.checkedMoved ksym).isSome
  phrase : l.currentPhrase.isSome

theorem keySafe_of_onPage [KeyTables] {l : CandidateList} (h : l.OnPage) : l.KeySafe where
  moved ksym := by
    rw [checkedMoved_of_onPage h]
    rfl
  phrase := currentPhrase_isSome h

end CandidateList

/-! ## Pages of a configuration -/

/-- The page an editor is on has candidates, if it has pages and pages have a length. -/
structure PageLaws (E : Type) [ChewingEditor E] : Prop where
  items_ne_nil : ∀ {e : E} {total : Nat} {items : List Str}, totalPage e = some total →
    paginatedCandidates e = some items → total ≠ 0 → (editorOptions e).candidatesPerPage ≠ 0 →
    items ≠ []

/-- A page that `update_candidates` sends with the configuration `cfg`, when the editor has
its page length from there. -/
inductive PageOf (cfg : ChewingTsfConfig) : ShowCandidateList → Prop
  | sent {E : Type} [ChewingEditor E] {env : Tip.CandidateEnv} {t : Tip E}
      {model : ShowCandidateList} (hlaws : PageLaws E) (hcfg : t.cfg = cfg)
      (hpage : (editorOptions t.chewingEditor).candidatesPerPage = i32AsU64 cfg.candPerPage)
      (hsent : t.Sends env model) : PageOf cfg model

theorem PageOf.page {cfg : ChewingTsfConfig} {model : ShowCandidateList} (h : PageOf cfg model)
    (hpage : i32AsU64 cfg.candPerPage ≠ 0) : model.Page := by
  cases h with
  | sent hlaws hcfg hlength hsent =>
    rw [← hlength] at hpage
    cases hsent with
    | @page keys total current items hselecting hkeys htotal hcurrent hitems hpages =>
      have htotal' : total ≠ 0 := by
        rintro rfl
        exact hpages rfl
      have hne : items ≠ [] := hlaws.items_ne_nil htotal hitems htotal' hpage
      refine ⟨?_, rfl⟩
      show items.take _ ≠ []
      rw [ne_eq, List.take_eq_nil_iff, not_or]
      exact ⟨hpage, hne⟩

section Safe

variable [KeyCodes]

/-- A call of the list, whose pages belong to `cfg`. -/
def CandidateStepOf (cfg : ChewingTsfConfig) (l : CandidateList) (c : CandidateList.Call)
    (l' : CandidateList) : Prop :=
  (∀ model, c = .setModel model → PageOf cfg model) ∧ l' = c.next l

/-- No use the key handling makes of the settings in `cfg` panics. -/
structure PanicFree (cfg : ChewingTsfConfig) : Prop where
  candidates : ∀ (E : Type) [ChewingEditor E] (env : Tip.CandidateEnv) (t : Tip E), t.cfg = cfg →
    (t.updateCandidates env).1 ≠ .error .panic
  selKey : ∀ (E : Type) (t : Tip E) (evt : KeyboardEvent), t.cfg = cfg → (t.mapSelKey evt).isSome
  list : ∀ (l₀ l : CandidateList) (model : ShowCandidateList) (calls : List CandidateList.Call),
    Run (CandidateStepOf cfg) l₀ (.setModel model :: calls) l → l.KeySafe

theorem Tip.mapSelKey_isSome_iff {E : Type} (t : Tip E) (evt : KeyboardEvent) :
    (t.mapSelKey evt).isSome ↔ i32AsU64 t.cfg.selKeyType < 6 := by
  rw [mapSelKey, Option.isSome_map, isSome_getElem?]
  exact Iff.rfl

omit [KeyCodes] in
theorem Tip.updateCandidateList_ne_panic {E : Type} [ChewingEditor E] (env : CandidateEnv)
    (list : CandidateList) {t : Tip E} (h : i32AsU64 t.cfg.selKeyType < 6) :
    (t.updateCandidateList env list).1 ≠ .error .panic := by
  have hkeys : selKeys[i32AsU64 t.cfg.selKeyType]? = some selKeys[i32AsU64 t.cfg.selKeyType] :=
    List.getElem?_eq_getElem h
  unfold updateCandidateList
  rw [hkeys]
  dsimp only
  split
  · split
    · split <;> nofun
    · dsimp only
      split <;> nofun
  · nofun

omit [KeyCodes] in
/-- `update_candidates` panics at an index out of range only. -/
theorem Tip.updateCandidates_ne_panic {E : Type} [ChewingEditor E] (env : CandidateEnv)
    {t : Tip E} (h : i32AsU64 t.cfg.selKeyType < 6) :
    (t.updateCandidates env).1 ≠ .error .panic := by
  unfold updateCandidates
  split
  · split
    · exact updateCandidateList_ne_panic env _ h
    · split
      · nofun
      · exact updateCandidateList_ne_panic (t := { t with candidateList := _ }) env _ h
  · nofun

/-- With an index in range and pages that have a length nothing panics. -/
theorem panicFree_of_valid {cfg : ChewingTsfConfig} (hkeys : i32AsU64 cfg.selKeyType < 6)
    (hpage : i32AsU64 cfg.candPerPage ≠ 0) : PanicFree cfg where
  candidates E _ env t hcfg := Tip.updateCandidates_ne_panic env (hcfg ▸ hkeys)
  selKey E t evt hcfg := (t.mapSelKey_isSome_iff evt).mpr (hcfg ▸ hkeys)
  list l₀ l model calls hrun := by
    refine CandidateList.keySafe_of_onPage (CandidateList.onPage_run (hrun.mono ?_))
    rintro l c l' ⟨hpages, hnext⟩
    refine ⟨?_, hnext⟩
    cases c with
    | setModel model => exact (hpages model rfl).page hpage
    | showUiElement shown => trivial
    | filterKeyEvent ksym => trivial

end Safe

section Necessary

open ScriptedEditor (offering selecting selecting_sends)

theorem ScriptedEditor.offering_pageLaws (candidate : Str) :
    @PageLaws ScriptedEditor (offering [candidate]) := by
  let _ := offering [candidate]
  constructor
  intro e total items _ hitems _ hlength hnil
  obtain rfl := Option.some.inj hitems
  rw [List.take_eq_nil_iff] at hnil
  exact hnil.elim hlength (List.cons_ne_nil _ _)

/-- The page that one candidate makes. -/
theorem pageOf_selecting {cfg : ChewingTsfConfig} {keys : Str}
    (hkeys : Tip.selKeys[i32AsU64 cfg.selKeyType]? = some keys) :
    PageOf cfg (Tip.candidateModel cfg ⟨0, 0⟩ keys (i32AsU64 cfg.candPerPage) 1 1
      (["一".toList].take (i32AsU64 cfg.candPerPage))) :=
  @PageOf.sent cfg ScriptedEditor (offering _) ⟨none, ⟨0, 0⟩, true⟩ (selecting cfg) _
    (ScriptedEditor.offering_pageLaws _) rfl rfl (selecting_sends _ hkeys _)

variable [KeyCodes]

theorem PanicFree.selKeyType_lt {cfg : ChewingTsfConfig} (h : PanicFree cfg) :
    i32AsU64 cfg.selKeyType < 6 :=
  ((selecting cfg).mapSelKey_isSome_iff KeyboardEvent.builder).mp
    (h.selKey ScriptedEditor (selecting cfg) KeyboardEvent.builder rfl)

/-- Pages without a length leave the cursor no item. -/
theorem PanicFree.candPerPage_ne_zero {cfg : ChewingTsfConfig} (h : PanicFree cfg) :
    i32AsU64 cfg.candPerPage ≠ 0 := by
  intro hzero
  have hpage := pageOf_selecting (List.getElem?_eq_getElem h.selKeyType_lt)
  have hrun : Run (CandidateStepOf cfg) ⟨.default, false⟩ [.setModel _] _ :=
    .single ⟨fun _ heq => CandidateList.Call.setModel.inj heq ▸ hpage, rfl⟩
  have hphrase := (h.list _ _ _ _ hrun).phrase
  rw [hzero] at hphrase
  cases hphrase

/-- **Which stored preferences are safe**: exactly those with one of the six kinds of
selection keys and with pages that are not empty. -/
theorem panicFree_load_iff [TypedReads] (key : RegKey) :
    PanicFree (ChewingTsfConfig.load key) ↔
      (0 ≤ (ChewingTsfConfig.load key).selKeyType ∧ (ChewingTsfConfig.load key).selKeyType < 6) ∧
        (ChewingTsfConfig.load key).candPerPage ≠ 0 := by
  rw [← i32AsU64_lt_six_iff (ChewingTsfConfig.load_selKeyType key),
    ne_eq, ← i32AsU64_eq_zero_iff (ChewingTsfConfig.load_candPerPage key)]
  constructor
  · intro h
    exact ⟨h.selKeyType_lt, h.candPerPage_ne_zero⟩
  · rintro ⟨hkeys, hpage⟩
    exact panicFree_of_valid hkeys hpage

end Necessary

open TypedEditor in
/-- A `SelKeyType` of -1 is no index of `SEL_KEYS`. -/
theorem panicFree_negative :
    ¬ ∀ (_ : TypedReads) (key : RegKey), PanicFree (ChewingTsfConfig.load key) := by
  intro hclaim
  have h := hclaim exactReads (NameStore.writeAll (fun _ => none) [regSetI32 "SelKeyType" (-1)])
  exact absurd h.selKeyType_lt (by decide +kernel)

end ChewingTsf
