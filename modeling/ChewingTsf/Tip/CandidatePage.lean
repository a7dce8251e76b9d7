import ChewingTsf.Tip.KeyDown

/-!
# Pages of candidates and their labels

`update_candidates` sends one page of candidates with a label for each item, the first
keys of `SEL_KEYS`. The host draws them (`RenderedView::on_paint` in
crates/chewing_tip_host/src/ui_elements/candidate_list.rs), and when one is typed,
`map_sel_key` turns it into the digit of its item. There are ten keys, but a page can be
longer: `on_paint` looks the label of any further item up under the tenth index, so the
tenth label appears again and selects the tenth item (`Tip.Sends.labelsSelect_iff`).
-/

namespace ChewingTsf

open ChewingEditor

variable {E : Type} [ChewingEditor E]

/-! ## The page that is sent -/

/-- `update_candidates` sends `model`, the page the editor is on. -/
inductive Tip.Sends (env : CandidateEnv) (t : Tip E) : ShowCandidateList → Prop
  | page {keys : Str} {total current : Nat} {items : List Str}
      (hselecting : isSelecting t.chewingEditor = true)
      (hkeys : selKeys[i32AsU64 t.cfg.selKeyType]? = some keys)
      (htotal : totalPage t.chewingEditor = some total)
      (hcurrent : currentPageNo t.chewingEditor = some current)
      (hitems : paginatedCandidates t.chewingEditor = some items)
      (hpages : total.toUInt32 ≠ 0) :
      Sends env t (candidateModel t.cfg env.rect keys
        (editorOptions t.chewingEditor).candidatesPerPage total.toUInt32 (current.toUInt32 + 1)
        items)

namespace Tip

variable {env : CandidateEnv} {t u : Tip E} {model : ShowCandidateList}

/-- The page depends on the configuration and the editor alone. -/
theorem Sends.congr (h : u.Sends env model) (hcfg : u.cfg = t.cfg)
    (heditor : u.chewingEditor = t.chewingEditor) : t.Sends env model := by
  cases h with
  | page hselecting hkeys htotal hcurrent hitems hpages =>
    rw [heditor] at hselecting htotal hcurrent hitems
    rw [hcfg] at hkeys
    rw [hcfg, heditor]
    exact .page hselecting hkeys htotal hcurrent hitems hpages

theorem Sends.updateCandidateList (h : t.Sends env model) (list : CandidateList) :
    (t.updateCandidateList env list).2.candidateList = some { list with model := model } := by
  cases h with
  | page hselecting hkeys htotal hcurrent hitems hpages =>
    rw [Tip.updateCandidateList, hkeys, htotal, hcurrent, hitems]
    dsimp only
    rw [if_neg hpages]

/-- What is sent is what the list then holds. -/
theorem Sends.updateCandidates (h : t.Sends env model)
    (hlist : t.candidateList.isSome ∨ env.new.isSome) :
    ∃ list, (t.updateCandidates env).2.candidateList = some list ∧ list.model = model := by
  have hselecting : isSelecting t.chewingEditor = true := by
    cases h
    assumption
  rw [Tip.updateCandidates, if_pos hselecting]
  cases hold : t.candidateList with
  | some list => exact ⟨_, h.updateCandidateList list, rfl⟩
  | none =>
    cases hnew : env.new with
    | none => simp [hold, hnew] at hlist
    | some shown =>
      have hopened : Sends env { t with candidateList := some ⟨.default, !shown⟩ } model :=
        h.congr rfl rfl
      exact ⟨_, hopened.updateCandidateList _, rfl⟩

theorem sends_of_updateCandidateList {list list' : CandidateList}
    (hselecting : isSelecting t.chewingEditor = true)
    (h : t.updateCandidateList env list = (.ok (), u)) (hlist : u.candidateList = some list') :
    t.Sends env list'.model := by
  unfold Tip.updateCandidateList at h
  split at h
  · cases h
  · next keys hkeys =>
    split at h
    · next total current items htotal hcurrent hitems =>
      split at h
      · -- the editor has no candidates, and the list is hidden
        dsimp only at h
        split at h
        · obtain ⟨-, rfl⟩ := Prod.mk.inj h
          cases hlist
        · cases h
      · next hpages =>
        obtain ⟨-, rfl⟩ := Prod.mk.inj h
        rw [← Option.some.inj hlist]
        exact .page hselecting hkeys htotal hcurrent hitems hpages
    · cases h

/-- Once `update_candidates` has succeeded, an open list holds a page that was sent. -/
theorem sends_of_updateCandidates {list : CandidateList}
    (h : t.updateCandidates env = (.ok (), u)) (hlist : u.candidateList = some list) :
    t.Sends env list.model := by
  unfold Tip.updateCandidates at h
  split at h
  · next hselecting =>
    split at h
    · exact sends_of_updateCandidateList hselecting h hlist
    · split at h
      · cases h
      · next shown _ =>
        have hsent := sends_of_updateCandidateList
          (t := { t with candidateList := some ⟨.default, !shown⟩ }) hselecting h hlist
        exact hsent.congr rfl rfl
  · obtain ⟨-, rfl⟩ := Prod.mk.inj h
    cases hlist

end Tip

/-! ## Labels -/

/-- What `on_paint` draws beside the item `i`, before the dot. -/
def ShowCandidateList.label (model : ShowCandidateList) (i : Nat) : UInt16 :=
  model.selkeys[min i 9]?.getD 0x3F

/-- Ten different ASCII characters. -/
theorem Tip.selKeys_keys :
    ∀ keys ∈ Tip.selKeys, keys.length = 10 ∧ keys.Nodup ∧ keys.all (·.toNat < 0x80) = true := by
  decide

/-- The labels of the first ten items are their keys. -/
theorem Tip.Sends.label_eq {env : CandidateEnv} {t : Tip E} {model : ShowCandidateList}
    (h : t.Sends env model) {keys : Str}
    (hkeys : Tip.selKeys[i32AsU64 t.cfg.selKeyType]? = some keys) {i : Nat}
    (hi : i < model.items.length) (hten : i < keys.length) :
    (model.label i).toNat = keys[i].toNat := by
  cases h with
  | page hselecting hkeys' htotal hcurrent hitems hpages =>
    obtain rfl := Option.some.inj (hkeys.symm.trans hkeys')
    obtain ⟨hlength, -, hascii⟩ := Tip.selKeys_keys keys (List.mem_of_getElem? hkeys)
    have hin : i < (editorOptions t.chewingEditor).candidatesPerPage :=
      Nat.lt_of_lt_of_le hi (List.length_take_le _ _)
    have hmin : min i 9 = i := by omega
    have hsmall : keys[i].toNat < 0x80 :=
      of_decide_eq_true (List.all_eq_true.mp hascii _ (List.getElem_mem hten))
    rw [ShowCandidateList.label, candidateModel, hmin, List.getElem?_map,
      List.getElem?_take_of_lt hin, List.getElem?_eq_getElem hten]
    exact Nat.mod_eq_of_lt (Nat.lt_of_lt_of_le hsmall (by decide))

section Select

variable [KeyCodes]

/-- While selecting, the editor picks the item of a digit: `pick` is the index of the
item that a key picks on the page. -/
structure PicksByDigit (pick : KeyboardEvent → Option Nat) : Prop where
  digit : ∀ (evt : KeyboardEvent) (k : Nat), k < 9 →
    evt.code = ⟨KeyCodes.key1.code + k.toUInt8⟩ → evt.ksym = ⟨KeyCodes.sym1.code + k.toUInt32⟩ →
    pick evt = some k
  zero : ∀ evt : KeyboardEvent, evt.code = KeyCodes.key0 → evt.ksym = KeyCodes.sym0 →
    pick evt = some 9

omit [ChewingEditor E] in
/-- A key of `SEL_KEYS` picks the item at its index. -/
theorem PicksByDigit.mapSelKey {pick : KeyboardEvent → Option Nat} (hpick : PicksByDigit pick)
    {t : Tip E} {keys : Str} (hkeys : Tip.selKeys[i32AsU64 t.cfg.selKeyType]? = some keys) {i : Nat}
    (hi : i < keys.length) {evt : KeyboardEvent} (hevt : KeyCodes.toUnicode evt.ksym = keys[i]) :
    (t.mapSelKey evt).bind pick = some i := by
  obtain ⟨hlength, hnodup, -⟩ := Tip.selKeys_keys keys (List.mem_of_getElem? hkeys)
  have hidx : keys.idxOf? keys[i] = some i := by
    rw [List.idxOf?_eq_some_iff]
    refine ⟨hi, rfl, fun j hj heq => ?_⟩
    exact absurd ((List.getElem_inj hnodup).mp heq) (Nat.ne_of_lt hj)
  rw [Tip.mapSelKey, hkeys, Option.map_some, Option.bind_some, hevt, hidx]
  dsimp only
  split
  · next hdigit => exact hpick.digit _ i hdigit rfl rfl
  · next hdigit =>
    obtain rfl : i = 9 := by omega
    exact hpick.zero _ rfl rfl

/-- Typing the label of an item selects it, and no two items have the same label. -/
structure Tip.LabelsSelect (pick : KeyboardEvent → Option Nat) (t : Tip E)
    (model : ShowCandidateList) : Prop where
  selects : ∀ (i : Nat) (evt : KeyboardEvent), i < model.items.length →
    (KeyCodes.toUnicode evt.ksym).toNat = (model.label i).toNat →
    (t.mapSelKey evt).bind pick = some i
  distinct : ∀ i j : Nat, i < model.items.length → j < model.items.length →
    model.label i = model.label j → i = j

/-- **The label of an item selects it**, and labels are not repeated, exactly on the pages
with at most ten items. -/
theorem Tip.Sends.labelsSelect_iff {pick : KeyboardEvent → Option Nat} (hpick : PicksByDigit pick)
    {env : CandidateEnv} {t : Tip E} {model : ShowCandidateList} (h : t.Sends env model) :
    t.LabelsSelect pick model ↔ model.items.length ≤ 10 := by
  obtain ⟨keys, hkeys⟩ : ∃ keys, Tip.selKeys[i32AsU64 t.cfg.selKeyType]? = some keys := by
    cases h
    exact ⟨_, ‹_›⟩
  obtain ⟨hlength, hnodup, -⟩ := Tip.selKeys_keys keys (List.mem_of_getElem? hkeys)
  constructor
  · intro hlabels
    by_contra hlong
    -- the eleventh item is labelled like the tenth
    have hsame := hlabels.distinct 9 10 (by omega) (by omega) rfl
    cases hsame
  · intro hshort
    have hlabel : ∀ i, (hi : i < model.items.length) →
        (model.label i).toNat = keys[i].toNat :=
      fun i hi => h.label_eq hkeys hi _
    constructor
    · intro i evt hi hevt
      have hi' : i < keys.length := by omega
      rw [hlabel i hi] at hevt
      exact hpick.mapSelKey hkeys hi' (Char.toNat_inj.mp hevt)
    · intro i j hi hj heq
      have hkey := congrArg UInt16.toNat heq
      rw [hlabel i hi, hlabel j hj] at hkey
      exact (List.getElem_inj hnodup).mp (Char.toNat_inj.mp hkey)

end Select

/-! ## Pages for examples -/

namespace ScriptedEditor

/-- The editor with one page of candidates. -/
@[reducible] def offering (candidates : List Str) : ChewingEditor ScriptedEditor :=
  { (inferInstance : ChewingEditor ScriptedEditor) with
    totalPage := fun _ => some 1
    paginatedCandidates := fun e => some (candidates.take e.options.candidatesPerPage) }

/-- A service with the configuration `cfg` while it is selecting. -/
def selecting (cfg : ChewingTsfConfig) : Tip ScriptedEditor :=
  { Tip.fresh .queued with
    cfg := cfg
    chewingEditor :=
      { absorbed [] with
        isSelecting := true
        options := { defaultOptions with candidatesPerPage := i32AsU64 cfg.candPerPage } } }

/-- A page of the candidates is sent. -/
theorem selecting_sends (candidates : List Str) {cfg : ChewingTsfConfig} {keys : Str}
    (hkeys : Tip.selKeys[i32AsU64 cfg.selKeyType]? = some keys) (env : Tip.CandidateEnv) :
    letI := offering candidates
    (selecting cfg).Sends env (Tip.candidateModel cfg env.rect keys (i32AsU64 cfg.candPerPage) 1 1
      (candidates.take (i32AsU64 cfg.candPerPage))) := by
  let _ := offering candidates
  exact .page (t := selecting cfg) rfl hkeys rfl rfl rfl (by decide)

/-- The index of the item that a digit picks. -/
def pickDigit (evt : KeyboardEvent) : Option Nat :=
  if evt.ksym = ⟨0x30⟩ then some 9
  else if 0x31 ≤ evt.ksym.code ∧ evt.ksym.code ≤ 0x39 then some (evt.ksym.code.toNat - 0x31)
  else none

open TypedEditor in
theorem pickDigit_picks : PicksByDigit pickDigit where
  digit evt k hk hcode hksym := by
    rw [pickDigit, hksym]
    clear hcode hksym
    revert k
    decide
  zero evt _ hksym := by
    rw [pickDigit, hksym]
    rfl

end ScriptedEditor

open TypedEditor ScriptedEditor

/-- Pages of three, with the keys `asdfjkl789`. -/
def threePerPage : ChewingTsfConfig :=
  { ChewingTsfConfig.default with selKeyType := 3, candPerPage := 3 }

theorem Tip.Sends.labelsSelect_three :
    (selecting threePerPage).LabelsSelect pickDigit (candidateModel threePerPage ⟨0, 0⟩
      "asdfjkl789".toList 3 1 1 ["一".toList, "二".toList, "三".toList]) := by
  let _ := offering ["一".toList, "二".toList, "三".toList, "四".toList]
  have hsent : (selecting threePerPage).Sends ⟨none, ⟨0, 0⟩, true⟩ _ := selecting_sends _ rfl _
  exact (Tip.Sends.labelsSelect_iff pickDigit_picks hsent).mpr (by decide)

/-- Eleven candidates on a page: the label 0 stands beside the last two. -/
theorem Tip.Sends.labelled_twice :
    ¬ ∀ (E : Type) [ChewingEditor E] (pick : KeyboardEvent → Option Nat) (env : CandidateEnv)
        (t : Tip E) (model : ShowCandidateList), PicksByDigit pick → 0 < t.cfg.candPerPage →
      (editorOptions t.chewingEditor).candidatesPerPage = i32AsU64 t.cfg.candPerPage →
      t.Sends env model → t.LabelsSelect pick model := by
  intro hclaim
  have hlabels := @hclaim ScriptedEditor (offering (List.replicate 11 "一".toList)) pickDigit
    ⟨none, ⟨0, 0⟩, true⟩ (selecting { ChewingTsfConfig.default with candPerPage := 11 }) _
    pickDigit_picks (by decide) rfl (selecting_sends _ rfl _)
  exact absurd (hlabels.distinct 9 10 (by decide) (by decide) rfl) (by decide)

end ChewingTsf
