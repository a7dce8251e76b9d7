import Mathlib.Data.List.TakeDrop
import ChewingTsf.Tip.Keybind
import ChewingTsf.Tip.Typing

/-!
# Key combinations (tip/src/keybind.rs)

What `key_from_str` reads from names joined by `+` depends on the modifiers named and on the
key alone, not on the order of the names, how often a modifier is named and how it is spelled
(`Combination.keyFromStr_eq`).
-/

namespace ChewingTsf

/-! ## Modifiers -/

inductive Modifier where
  | control
  | shift
  | alt
  | super
  deriving DecidableEq

namespace Modifier

theorem forall_iff {p : Modifier → Prop} :
    (∀ m, p m) ↔ p .control ∧ p .shift ∧ p .alt ∧ p .super := by
  constructor
  · intro h
    exact ⟨h _, h _, h _, h _⟩
  · rintro ⟨hcontrol, hshift, halt, hsuper⟩ m
    cases m <;> assumption

/-- The names of a modifier, in lower case. -/
def names : Modifier → List Str
  | .control => ["ctrl".toList, "control".toList]
  | .shift => ["shift".toList]
  | .alt => ["alt".toList, "opt".toList, "option".toList]
  | .super => ["super".toList, "cmd".toList, "command".toList]

def state : Modifier → KeyState
  | .control => .control
  | .shift => .shift
  | .alt => .alt
  | .super => .super

/-- The setter of the builder. -/
def press (builder : KeyboardEvent) : Modifier → KeyboardEvent
  | .control => { builder with control := true }
  | .shift => { builder with shift := true }
  | .alt => { builder with alt := true }
  | .super => { builder with super := true }

/-- `part` is a name of the modifier, in any letter case and with any space around it. -/
def IsNamed (m : Modifier) (part : Str) : Prop := (trim part).map Char.toLower ∈ m.names

instance (m : Modifier) (part : Str) : Decidable (m.IsNamed part) :=
  inferInstanceAs (Decidable (_ ∈ _))

/-- No name is that of two modifiers. -/
theorem IsNamed.unique {m n : Modifier} {part : Str} (hm : m.IsNamed part)
    (hn : n.IsNamed part) : m = n := by
  unfold IsNamed at hm hn
  generalize (trim part).map Char.toLower = name at hm hn
  cases m <;> cases n <;> first
    | rfl
    | (simp only [names, List.mem_cons, List.not_mem_nil, or_false] at hm hn
       rcases hm with rfl | rfl | rfl <;> revert hn <;> decide)

end Modifier

/-- `part` is not the name of a modifier. -/
def IsKeyName (part : Str) : Prop := ∀ m : Modifier, ¬ m.IsNamed part

instance (part : Str) : Decidable (IsKeyName part) := decidable_of_iff _ Modifier.forall_iff.symm

section Parts

variable [Keysyms] {builder : KeyboardEvent} {part : Str}

theorem keyPart_modifier {m : Modifier} (h : m.IsNamed part) :
    keyPart builder part = some (m.press builder) := by
  unfold keyPart
  unfold Modifier.IsNamed at h
  generalize (trim part).map Char.toLower = name at h ⊢
  cases m with
  | control =>
    simp only [Modifier.names, List.mem_cons, List.not_mem_nil, or_false] at h
    rcases h with rfl | rfl <;> rfl
  | shift =>
    simp only [Modifier.names, List.mem_cons, List.not_mem_nil, or_false] at h
    subst h
    rfl
  | alt | super =>
    simp only [Modifier.names, List.mem_cons, List.not_mem_nil, or_false] at h
    rcases h with rfl | rfl | rfl <;> rfl

theorem keyPart_key (h : IsKeyName part) :
    keyPart builder part =
      (keysymFromStr part).map fun ksym => { builder with ksym := ksym } := by
  have hcontrol := h .control
  have hshift := h .shift
  have halt := h .alt
  have hsuper := h .super
  simp only [Modifier.IsNamed, Modifier.names, List.mem_cons, List.not_mem_nil, or_false]
    at hcontrol hshift halt hsuper
  unfold keyPart
  rw [if_neg hcontrol, if_neg hshift, if_neg halt, if_neg hsuper]

/-- The space around the name of a key does not count. -/
theorem keysymFromStr_congr {s s' : Str} (h : trim s = trim s') :
    keysymFromStr s = keysymFromStr s' := by
  unfold keysymFromStr
  rw [h]

end Parts

/-! ## What the parts set -/

/-- `parts` name the modifier `m`. -/
def names (parts : List Str) (m : Modifier) : Bool := parts.any fun part => m.IsNamed part

@[simp] theorem names_cons (part : Str) (parts : List Str) (m : Modifier) :
    names (part :: parts) m = (decide (m.IsNamed part) || names parts m) := rfl

theorem exists_isNamed {part : Str} (h : ¬ IsKeyName part) : ∃ m : Modifier, m.IsNamed part := by
  simpa [IsKeyName] using h

/-- The modifiers that `parts` name, set in addition to those of `builder`. -/
def pressNamed (parts : List Str) (builder : KeyboardEvent) : KeyboardEvent :=
  { builder with
    control := builder.control || names parts .control
    shift := builder.shift || names parts .shift
    alt := builder.alt || names parts .alt
    super := builder.super || names parts .super }

theorem pressNamed_modifier {m : Modifier} {part : Str} (h : m.IsNamed part) (parts : List Str)
    (builder : KeyboardEvent) :
    pressNamed parts (m.press builder) = pressNamed (part :: parts) builder := by
  have hnamed : ∀ n : Modifier, decide (n.IsNamed part) = decide (n = m) := fun n =>
    decide_eq_decide.mpr ⟨fun hn => hn.unique h, fun hn => hn ▸ h⟩
  unfold pressNamed
  simp only [names_cons, hnamed]
  cases m <;> simp [Modifier.press]

theorem pressNamed_key {part : Str} (h : IsKeyName part) (parts : List Str)
    (builder : KeyboardEvent) :
    pressNamed (part :: parts) builder = pressNamed parts builder := by
  unfold pressNamed
  simp [h _]

section Fold

variable [Keysyms] {parts : List Str} {builder : KeyboardEvent}

theorem foldlM_keyPart_modifiers (h : parts.filter (IsKeyName ·) = []) :
    parts.foldlM keyPart builder = some (pressNamed parts builder) := by
  induction parts generalizing builder with
  | nil => simp [pressNamed, names]
  | cons part parts ih =>
    by_cases hkey : IsKeyName part
    · simp [hkey] at h
    · obtain ⟨m, hm⟩ := exists_isNamed hkey
      rw [List.filter_cons_of_neg (by simpa using hkey)] at h
      rw [List.foldlM_cons, keyPart_modifier hm]
      show parts.foldlM keyPart (m.press builder) = _
      rw [ih h, pressNamed_modifier hm]

/-- The key may stand anywhere among the modifiers. -/
theorem foldlM_keyPart {key : Str} (h : parts.filter (IsKeyName ·) = [key]) :
    parts.foldlM keyPart builder =
      (keysymFromStr key).map fun ksym => pressNamed parts { builder with ksym := ksym } := by
  induction parts generalizing builder with
  | nil => cases h
  | cons part parts ih =>
    by_cases hkey : IsKeyName part
    · rw [List.filter_cons_of_pos (by simpa using hkey)] at h
      obtain ⟨rfl, hrest⟩ := List.cons.inj h
      rw [List.foldlM_cons, keyPart_key hkey]
      cases keysymFromStr part with
      | none => rfl
      | some ksym =>
        show parts.foldlM keyPart { builder with ksym := ksym } =
          some (pressNamed (part :: parts) { builder with ksym := ksym })
        rw [foldlM_keyPart_modifiers hrest, pressNamed_key hkey]
    · obtain ⟨m, hm⟩ := exists_isNamed hkey
      rw [List.filter_cons_of_neg (by simpa using hkey)] at h
      rw [List.foldlM_cons, keyPart_modifier hm]
      show parts.foldlM keyPart (m.press builder) = _
      rw [ih h]
      refine congrArg (Option.map · _) (funext fun ksym => ?_)
      rw [← pressNamed_modifier hm]
      cases m <;> rfl

end Fold

/-! ## Combinations -/

/-- What a list of names stands for: modifiers, and a key if one is named. -/
structure Combination where
  modifiers : Modifier → Bool
  key : Option Str

namespace Combination

/-- `parts` name the modifiers of the combination, in any order and as often as they like, and
its key, up to the space around it. -/
structure IsSpelled (c : Combination) (parts : List Str) : Prop where
  plus : ∀ part ∈ parts, '+' ∉ part
  modifiers : ∀ m, names parts m = c.modifiers m
  key : (parts.filter (IsKeyName ·)).map trim = (c.key.map trim).toList

variable {c : Combination} {parts : List Str}

/-- Names without a `+`, of which at most one is that of a key, spell a combination. -/
theorem exists_isSpelled (hplus : ∀ part ∈ parts, '+' ∉ part)
    (hkey : (parts.filter (IsKeyName ·)).length ≤ 1) : ∃ c : Combination, c.IsSpelled parts := by
  cases hfilter : parts.filter (IsKeyName ·) with
  | nil => exact ⟨⟨names parts, none⟩, hplus, fun _ => rfl, by simp [hfilter]⟩
  | cons key keys =>
    rw [hfilter] at hkey
    have hnil : keys = [] := by simpa using hkey
    exact ⟨⟨names parts, some key⟩, hplus, fun _ => rfl, by simp [hfilter, hnil]⟩

/-- What is spelled by no names at all is not spelled otherwise. -/
theorem IsSpelled.eq_nil {others : List Str} (h : c.IsSpelled []) (hothers : c.IsSpelled others) :
    others = [] := by
  cases others with
  | nil => rfl
  | cons part parts =>
    exfalso
    by_cases hkey : IsKeyName part
    · have hnone := h.key
      rw [← hothers.key, List.filter_cons_of_pos (by simpa using hkey)] at hnone
      cases hnone
    · obtain ⟨m, hm⟩ := exists_isNamed hkey
      have hnamed := hothers.modifiers m
      rw [← h.modifiers m] at hnamed
      simp [hm, names] at hnamed

section Reading

variable [Keysyms]

/-- The event that a combination with the keysym `ksym` is compared with. -/
def event (c : Combination) (ksym : Keysym) : KeyboardEvent :=
  { KeyboardEvent.builder with
    ksym := ksym
    control := c.modifiers .control
    shift := c.modifiers .shift
    alt := c.modifiers .alt
    super := c.modifiers .super }

theorem IsSpelled.pressNamed (h : c.IsSpelled parts) (ksym : Keysym) :
    ChewingTsf.pressNamed parts.reverse { KeyboardEvent.builder with ksym := ksym } =
      c.event ksym := by
  have hnames : ∀ m, names parts.reverse m = c.modifiers m := fun m => by
    rw [← h.modifiers m, names, List.any_reverse, names]
  simp [ChewingTsf.pressNamed, event, hnames, KeyboardEvent.builder]

/-- `key_from_str` reads the combination, whatever the names and their order. -/
theorem IsSpelled.keyFromStr (h : c.IsSpelled parts) (hne : parts ≠ []) :
    keyFromStr (['+'].intercalate parts) =
      match c.key with
      | none => some (c.event Keysyms.symNone)
      | some key => (keysymFromStr key).map c.event := by
  unfold ChewingTsf.keyFromStr
  rw [List.splitOn_intercalate '+' h.plus hne]
  cases hkey : c.key with
  | none =>
    have hnone : parts.reverse.filter (IsKeyName ·) = [] := by
      simpa [hkey, List.filter_reverse] using h.key
    rw [foldlM_keyPart_modifiers hnone]
    exact congrArg some (h.pressNamed Keysyms.symNone)
  | some key =>
    have hkeys : (parts.filter (IsKeyName ·)).map trim = [trim key] := by
      simpa [hkey] using h.key
    obtain ⟨part, hpart, htrim⟩ := List.map_eq_singleton_iff.mp hkeys
    have hreverse : parts.reverse.filter (IsKeyName ·) = [part] := by
      rw [List.filter_reverse, hpart, List.reverse_singleton]
    rw [foldlM_keyPart hreverse, keysymFromStr_congr htrim]
    exact congrArg (Option.map · _) (funext h.pressNamed)

theorem event_matches_iff {kb : Keybinding} {ksym : Keysym} (h : kb.key = c.event ksym)
    (evt : KeyboardEvent) :
    kb.matches evt = true ↔
      (∀ m : Modifier, evt.isStateOn m.state = c.modifiers m) ∧
        (ksym = evt.ksym ∨ ksym = Keysyms.symNone) := by
  unfold Keybinding.matches
  rw [h, Modifier.forall_iff]
  simp only [List.all_cons, List.all_nil, KeyboardEvent.isStateOn, Modifier.state, event,
    Bool.and_eq_true, Bool.or_eq_true, beq_iff_eq, and_true]
  constructor
  · rintro ⟨hksym, halt, hcontrol, hshift, hsuper⟩
    exact ⟨⟨hcontrol.symm, hshift.symm, halt.symm, hsuper.symm⟩, hksym⟩
  · rintro ⟨⟨hcontrol, hshift, halt, hsuper⟩, hksym⟩
    exact ⟨hksym, halt.symm, hcontrol.symm, hshift.symm, hsuper.symm⟩

/-- A key combination means the same in any order and spelling: the same key is read, and it
matches the events in which exactly the modifiers named are on and which are of the key
named. -/
theorem means_same (c : Combination) :
    (∀ ps qs, c.IsSpelled ps → c.IsSpelled qs →
        ChewingTsf.keyFromStr (['+'].intercalate ps) =
          ChewingTsf.keyFromStr (['+'].intercalate qs)) ∧
      ∀ (ps : List Str) (kb : Keybinding), c.IsSpelled ps →
        ChewingTsf.keyFromStr (['+'].intercalate ps) = some kb.key →
        (∀ key ∈ c.key, keysymFromStr key ≠ some Keysyms.symNone) →
        ∀ evt : KeyboardEvent, kb.matches evt = true ↔
          (∀ m : Modifier, evt.isStateOn m.state = c.modifiers m) ∧
            ∀ key ∈ c.key, keysymFromStr key = some evt.ksym := by
  constructor
  · intro ps qs hps hqs
    -- no names at all are spelled in one way only
    by_cases hnil : ps = []
    · subst hnil
      rw [hps.eq_nil hqs]
    · have hqnil : qs ≠ [] := fun hq => hnil (by subst hq; exact hqs.eq_nil hps)
      rw [hps.keyFromStr hnil, hqs.keyFromStr hqnil]
  · intro ps kb hps hread hnone evt
    have hne : ps ≠ [] := by
      rintro rfl
      cases hread
    rw [hps.keyFromStr hne] at hread
    cases hkey : c.key with
    | none =>
      rw [hkey] at hread
      rw [event_matches_iff (Option.some.inj hread).symm evt]
      simp
    | some key =>
      rw [hkey] at hread
      obtain ⟨ksym, hksym, hevent⟩ := Option.map_eq_some_iff.mp hread
      have hreal : ksym ≠ Keysyms.symNone := fun heq =>
        hnone key hkey (by rw [hksym, heq])
      rw [event_matches_iff hevent.symm evt]
      simp [hksym, hreal]

end Reading

/-- The modifier named twice, under two names, behind the key. -/
theorem means_same_twice :
    let _ := ScriptedEditor.keysyms
    ChewingTsf.keyFromStr "shift+ A+Ctrl+control ".toList =
        ChewingTsf.keyFromStr "CONTROL+Shift+A".toList ∧
      ∀ kb : Keybinding, ChewingTsf.keyFromStr "CONTROL+Shift+A".toList = some kb.key →
        kb.matches ⟨⟨30⟩, ⟨65⟩, true, true, false, false, false, true⟩ = true := by
  intro _
  let c : Combination := ⟨fun m => m = .control ∨ m = .shift, some "A".toList⟩
  have hps : c.IsSpelled
      ["shift".toList, " A".toList, "Ctrl".toList, "control ".toList] :=
    ⟨by decide, Modifier.forall_iff.mpr (by decide), by decide⟩
  have hqs : c.IsSpelled ["CONTROL".toList, "Shift".toList, "A".toList] :=
    ⟨by decide, Modifier.forall_iff.mpr (by decide), by decide⟩
  refine ⟨c.means_same.1 _ _ hps hqs, fun kb hread => ?_⟩
  refine (c.means_same.2 _ kb hqs hread ?_ _).mpr ?_
  · rintro _ ⟨⟩
    decide
  · exact ⟨Modifier.forall_iff.mpr (by decide), by rintro _ ⟨⟩; decide⟩

end Combination

end ChewingTsf
