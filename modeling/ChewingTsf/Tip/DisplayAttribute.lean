import Mathlib.Data.List.Infix
import Mathlib.Data.List.Nodup
import ChewingTsf.Lib.Run

/-!
# Display attributes (tip/src/text_service/display_attribute.rs)

The display attributes are registered in one list that all enumerators share: a new GUID is
appended, one that is known gets its attribute replaced in place. An enumerator is a cursor
into the list. Since no GUID moves and none is removed, what an enumerator passes is a segment
of the list that starts where the enumerator was last set to, whatever is registered in
between (`AttrState.passedBy_prefix_of_run`).
-/

namespace ChewingTsf

/-- `DisplayAttributeInfo`. -/
structure DisplayAttributeInfo (Guid DA : Type) where
  guid : Guid
  da : DA

section Registry

variable {Guid DA : Type} [DecidableEq Guid]

/-- `register_display_attribute`, with the atom that `RegisterGUID` returns, if it and the
category manager do not fail. -/
def registerDisplayAttribute (registerGuid : Option UInt32) (guid : Guid) (da : DA)
    (attrs : List (DisplayAttributeInfo Guid DA)) :
    Option Int32 × List (DisplayAttributeInfo Guid DA) :=
  match registerGuid with
  | none => (none, attrs)
  | some atom =>
    match attrs.findIdx? fun attr => attr.guid = guid with
    | some pos => (some atom.toInt32, attrs.set pos ⟨guid, da⟩)
    | none => (some atom.toInt32, attrs ++ [⟨guid, da⟩])

/-- `get_display_attribute_info`, of a GUID that is not null. -/
def getDisplayAttributeInfo (guid : Guid) (attrs : List (DisplayAttributeInfo Guid DA)) :
    Option (DisplayAttributeInfo Guid DA) :=
  (attrs.findIdx? fun attr => attr.guid = guid).bind fun pos => attrs[pos]?

/-- A registration keeps the GUIDs and appends the one it is for if that is new. -/
theorem registerDisplayAttribute_guids (registerGuid : Option UInt32) (guid : Guid) (da : DA)
    (attrs : List (DisplayAttributeInfo Guid DA)) :
    (registerDisplayAttribute registerGuid guid da attrs).2.map (·.guid) = attrs.map (·.guid) ∨
      guid ∉ attrs.map (·.guid) ∧
        (registerDisplayAttribute registerGuid guid da attrs).2.map (·.guid) =
          attrs.map (·.guid) ++ [guid] := by
  unfold registerDisplayAttribute
  cases registerGuid with
  | none => exact .inl rfl
  | some atom =>
    cases hpos : attrs.findIdx? fun attr => attr.guid = guid with
    | some pos =>
      obtain ⟨hlt, hguid, -⟩ := List.findIdx?_eq_some_iff_getElem.mp hpos
      refine .inl (List.ext_getElem (by simp) fun n hn hn' => ?_)
      -- the entry that is replaced has the GUID already
      by_cases heq : pos = n
      · subst heq
        simpa using (of_decide_eq_true hguid).symm
      · simp [heq]
    | none =>
      rw [List.findIdx?_eq_none_iff] at hpos
      refine .inr ⟨fun hmem => ?_, by simp⟩
      obtain ⟨attr, hattr, rfl⟩ := List.mem_map.mp hmem
      simpa using hpos attr hattr

/-- The attribute found for a GUID is the one registered last. -/
theorem getDisplayAttributeInfo_register (atom : UInt32) (guid : Guid) (da : DA)
    (attrs : List (DisplayAttributeInfo Guid DA)) :
    getDisplayAttributeInfo guid (registerDisplayAttribute (some atom) guid da attrs).2 =
      some ⟨guid, da⟩ := by
  unfold registerDisplayAttribute getDisplayAttributeInfo
  cases hpos : attrs.findIdx? fun attr => attr.guid = guid with
  | some pos =>
    obtain ⟨hlt, -, hbefore⟩ := List.findIdx?_eq_some_iff_getElem.mp hpos
    have hset : (attrs.set pos ⟨guid, da⟩).findIdx? (fun attr => attr.guid = guid) =
        some pos := by
      refine List.findIdx?_eq_some_iff_getElem.mpr ⟨by simpa using hlt, by simp, fun j hj => ?_⟩
      simpa [hj.ne'] using hbefore j hj
    simp [hset, hlt]
  | none =>
    simp [List.findIdx?_append, hpos]

end Registry

/-! ## Enumerators -/

/-- `EnumTfDisplayAttributeInfo`. -/
structure EnumTfDisplayAttributeInfo where
  cursor : Nat
  deriving DecidableEq

/-- What a loop over the list has passed. -/
structure Walk (Guid DA : Type) where
  count : Nat
  passed : List (DisplayAttributeInfo Guid DA)

/-- What `Next` writes, and whether it returns `S_OK` or `S_FALSE`. -/
structure NextReply (Guid DA : Type) where
  rginfo : List (DisplayAttributeInfo Guid DA)
  pcfetched : Nat
  ok : Bool

namespace EnumTfDisplayAttributeInfo

variable {Guid DA : Type}

/-- One round of the loops of `Next` and `Skip`. -/
def pass (w : Walk Guid DA × EnumTfDisplayAttributeInfo) (attr : DisplayAttributeInfo Guid DA) :
    Walk Guid DA × EnumTfDisplayAttributeInfo :=
  (⟨w.1.count + 1, w.1.passed ++ [attr]⟩, ⟨w.2.cursor + 1⟩)

/-- The loops of `Next` and `Skip`. -/
def walk (self : EnumTfDisplayAttributeInfo) (attrs : List (DisplayAttributeInfo Guid DA))
    (ulcount : Nat) : Walk Guid DA × EnumTfDisplayAttributeInfo :=
  ((attrs.drop self.cursor).take ulcount).foldl pass (⟨0, []⟩, self)

/-- `Next`. -/
def next (self : EnumTfDisplayAttributeInfo) (attrs : List (DisplayAttributeInfo Guid DA))
    (ulcount : Nat) : NextReply Guid DA × EnumTfDisplayAttributeInfo :=
  let (w, self) := self.walk attrs ulcount
  (⟨w.passed, w.count, w.count = ulcount⟩, self)

/-- `Skip`. -/
def skip (self : EnumTfDisplayAttributeInfo) (attrs : List (DisplayAttributeInfo Guid DA))
    (ulcount : Nat) : Bool × EnumTfDisplayAttributeInfo :=
  let (w, self) := self.walk attrs ulcount
  (w.count = ulcount, self)

/-- `Reset`. -/
def reset (_ : EnumTfDisplayAttributeInfo) : EnumTfDisplayAttributeInfo := ⟨0⟩

/-- `Clone`. -/
def clone (self : EnumTfDisplayAttributeInfo) : EnumTfDisplayAttributeInfo := ⟨self.cursor⟩

theorem foldl_pass (items : List (DisplayAttributeInfo Guid DA))
    (w : Walk Guid DA × EnumTfDisplayAttributeInfo) :
    items.foldl pass w =
      (⟨w.1.count + items.length, w.1.passed ++ items⟩, ⟨w.2.cursor + items.length⟩) := by
  induction items generalizing w with
  | nil => simp
  | cons attr items ih =>
    rw [List.foldl_cons, ih]
    simp [pass, Nat.add_assoc, Nat.add_comm 1]

/-- A loop passes the entries asked for, as far as there are any, with one step of the cursor
for each. -/
theorem walk_eq (self : EnumTfDisplayAttributeInfo)
    (attrs : List (DisplayAttributeInfo Guid DA)) (ulcount : Nat) :
    self.walk attrs ulcount =
      (⟨min ulcount (attrs.length - self.cursor), (attrs.drop self.cursor).take ulcount⟩,
        ⟨self.cursor + min ulcount (attrs.length - self.cursor)⟩) := by
  unfold walk
  rw [foldl_pass]
  simp

variable {self : EnumTfDisplayAttributeInfo} {attrs : List (DisplayAttributeInfo Guid DA)}
  {ulcount : Nat}

theorem next_eq : self.next attrs ulcount =
    (⟨(attrs.drop self.cursor).take ulcount, min ulcount (attrs.length - self.cursor),
      decide (ulcount ≤ attrs.length - self.cursor)⟩,
      ⟨self.cursor + min ulcount (attrs.length - self.cursor)⟩) := by
  have hall : min ulcount (attrs.length - self.cursor) = ulcount ↔
      ulcount ≤ attrs.length - self.cursor := by omega
  simp [next, walk_eq, hall]

theorem skip_eq : self.skip attrs ulcount =
    (decide (ulcount ≤ attrs.length - self.cursor),
      ⟨self.cursor + min ulcount (attrs.length - self.cursor)⟩) := by
  have hall : min ulcount (attrs.length - self.cursor) = ulcount ↔
      ulcount ≤ attrs.length - self.cursor := by omega
  simp [skip, walk_eq, hall]

/-- With the same list, `Next(j)` and then `Next(k)` do what `Next(j + k)` does. -/
theorem next_next (j k : Nat) :
    let first := self.next attrs j
    let second := first.2.next attrs k
    self.next attrs (j + k) =
      (⟨first.1.rginfo ++ second.1.rginfo, first.1.pcfetched + second.1.pcfetched,
        first.1.ok && second.1.ok⟩, second.2) := by
  simp only [next_eq]
  rcases Nat.le_total j (attrs.length - self.cursor) with hj | hj
  · have htake : (attrs.drop self.cursor).take (j + k) =
        (attrs.drop self.cursor).take j ++ (attrs.drop (self.cursor + j)).take k := by
      rw [List.take_add, List.drop_drop]
    simp only [Nat.min_eq_left hj, htake, Prod.mk.injEq, NextReply.mk.injEq, true_and,
      EnumTfDisplayAttributeInfo.mk.injEq]
    refine ⟨⟨by omega, ?_⟩, by omega⟩
    rw [← Bool.decide_and, decide_eq_decide]
    omega
  · -- nothing is left for the second call
    have hlen : (attrs.drop self.cursor).length ≤ j := by simpa using hj
    have hnone : attrs.drop (self.cursor + (attrs.length - self.cursor)) = [] :=
      List.drop_eq_nil_of_le (by omega)
    have htake : (attrs.drop self.cursor).take (j + k) = (attrs.drop self.cursor).take j := by
      rw [List.take_of_length_le hlen, List.take_of_length_le (by omega)]
    simp only [Nat.min_eq_right hj, htake, hnone, List.take_nil, List.append_nil,
      Prod.mk.injEq, NextReply.mk.injEq, true_and, EnumTfDisplayAttributeInfo.mk.injEq]
    refine ⟨⟨by omega, ?_⟩, by omega⟩
    rw [← Bool.decide_and, decide_eq_decide]
    omega

end EnumTfDisplayAttributeInfo

/-! ## The registry and its enumerators -/

/-- `ATTRS`, and the enumerators in the order they were created in. -/
structure AttrState (Guid DA : Type) where
  attrs : List (DisplayAttributeInfo Guid DA)
  enumerators : List EnumTfDisplayAttributeInfo

/-- A call, with what it returns. -/
inductive AttrEvent (Guid DA : Type) where
  | registerDisplayAttribute (registerGuid : Option UInt32) (guid : Guid) (da : DA)
  | enumDisplayAttributeInfo
  | next (i ulcount : Nat) (reply : NextReply Guid DA)
  /-- with the entries that are skipped -/
  | skip (i ulcount : Nat) (passed : List (DisplayAttributeInfo Guid DA)) (ok : Bool)
  | reset (i : Nat)
  | clone (i : Nat)

section Steps

variable {Guid DA : Type} [DecidableEq Guid]

/-- The registry and the enumerators take the calls in any order. -/
inductive AttrStep : AttrState Guid DA → AttrEvent Guid DA → AttrState Guid DA → Prop
  | registerDisplayAttribute {s : AttrState Guid DA} {registerGuid : Option UInt32}
      {guid : Guid} {da : DA} :
      AttrStep s (.registerDisplayAttribute registerGuid guid da)
        { s with attrs := (registerDisplayAttribute registerGuid guid da s.attrs).2 }
  | enumDisplayAttributeInfo {s : AttrState Guid DA} :
      AttrStep s .enumDisplayAttributeInfo { s with enumerators := s.enumerators ++ [⟨0⟩] }
  | next {s : AttrState Guid DA} {i ulcount : Nat} {e : EnumTfDisplayAttributeInfo}
      (h : s.enumerators[i]? = some e) :
      AttrStep s (.next i ulcount (e.next s.attrs ulcount).1)
        { s with enumerators := s.enumerators.set i (e.next s.attrs ulcount).2 }
  | skip {s : AttrState Guid DA} {i ulcount : Nat} {e : EnumTfDisplayAttributeInfo}
      (h : s.enumerators[i]? = some e) :
      AttrStep s (.skip i ulcount (e.walk s.attrs ulcount).1.passed (e.skip s.attrs ulcount).1)
        { s with enumerators := s.enumerators.set i (e.skip s.attrs ulcount).2 }
  | reset {s : AttrState Guid DA} {i : Nat} {e : EnumTfDisplayAttributeInfo}
      (h : s.enumerators[i]? = some e) :
      AttrStep s (.reset i) { s with enumerators := s.enumerators.set i e.reset }
  | clone {s : AttrState Guid DA} {i : Nat} {e : EnumTfDisplayAttributeInfo}
      (h : s.enumerators[i]? = some e) :
      AttrStep s (.clone i) { s with enumerators := s.enumerators ++ [e.clone] }

/-- The GUIDs that are registered, in order. -/
def AttrState.guids (s : AttrState Guid DA) : List Guid := s.attrs.map (·.guid)

/-- The enumerator whose cursor a call is about. -/
def AttrEvent.mover : AttrEvent Guid DA → Option Nat
  | .next i .. | .skip i .. | .reset i => some i
  | _ => none

/-- The entries that a call of the enumerator `i` returns or skips. -/
def AttrEvent.passed (i : Nat) : AttrEvent Guid DA → List (DisplayAttributeInfo Guid DA)
  | .next j _ reply => if j = i then reply.rginfo else []
  | .skip j _ passed _ => if j = i then passed else []
  | _ => []

/-- The GUIDs that the enumerator `i` returns or skips, in order. -/
def passedBy (i : Nat) (events : List (AttrEvent Guid DA)) : List Guid :=
  events.flatMap fun event => (event.passed i).map (·.guid)

namespace AttrStep

variable {s t : AttrState Guid DA} {event : AttrEvent Guid DA} {i : Nat}
  {e : EnumTfDisplayAttributeInfo}

/-! What each call of an enumerator does to it. -/

theorem next_spec {k : Nat} {reply : NextReply Guid DA} (h : AttrStep s (.next i k reply) t) :
    ∃ e, s.enumerators[i]? = some e ∧ reply = (e.next s.attrs k).1 ∧ t.attrs = s.attrs ∧
      t.enumerators[i]? = some (e.next s.attrs k).2 := by
  cases h with
  | @next _ _ e he =>
    have hlt : i < s.enumerators.length := (List.getElem?_eq_some_iff.mp he).1
    exact ⟨e, he, rfl, rfl, by simp [hlt]⟩

theorem skip_spec {k : Nat} {passed : List (DisplayAttributeInfo Guid DA)} {ok : Bool}
    (h : AttrStep s (.skip i k passed ok) t) :
    ∃ e, s.enumerators[i]? = some e ∧ passed = (e.walk s.attrs k).1.passed ∧
      ok = (e.skip s.attrs k).1 ∧ t.enumerators[i]? = some (e.skip s.attrs k).2 := by
  cases h with
  | @skip _ _ e he =>
    have hlt : i < s.enumerators.length := (List.getElem?_eq_some_iff.mp he).1
    exact ⟨e, he, rfl, rfl, by simp [hlt]⟩

theorem reset_spec (h : AttrStep s (.reset i) t) : t.enumerators[i]? = some ⟨0⟩ := by
  cases h with
  | @reset _ e he =>
    have hlt : i < s.enumerators.length := (List.getElem?_eq_some_iff.mp he).1
    simp [EnumTfDisplayAttributeInfo.reset, hlt]

theorem clone_spec (h : AttrStep s (.clone i) t) :
    ∃ e, s.enumerators[i]? = some e ∧ t.enumerators = s.enumerators ++ [e] := by
  cases h with
  | @clone _ e he => exact ⟨e, he, rfl⟩

/-- A step keeps every GUID where it is. -/
theorem guids_prefix (h : AttrStep s event t) : s.guids <+: t.guids := by
  cases h with
  | @registerDisplayAttribute registerGuid guid da =>
    rcases registerDisplayAttribute_guids registerGuid guid da s.attrs with hguids | ⟨-, hguids⟩
    · exact ⟨[], by simp [AttrState.guids, hguids]⟩
    · exact ⟨[guid], by simp [AttrState.guids, hguids]⟩
  | _ => exact List.prefix_rfl

theorem nodup_guids (h : AttrStep s event t) (hnodup : s.guids.Nodup) : t.guids.Nodup := by
  cases h with
  | @registerDisplayAttribute registerGuid guid da =>
    unfold AttrState.guids
    rcases registerDisplayAttribute_guids registerGuid guid da s.attrs with
      hguids | ⟨hnew, hguids⟩
    · rw [hguids]
      exact hnodup
    · rw [hguids]
      simpa using hnodup.concat hnew
  | _ => exact hnodup

/-- A call that is not about the cursor of `i` leaves it where it is. -/
theorem enumerators_of_mover_ne (h : AttrStep s event t) (he : s.enumerators[i]? = some e)
    (hmover : event.mover ≠ some i) : t.enumerators[i]? = some e := by
  have hlt : i < s.enumerators.length := (List.getElem?_eq_some_iff.mp he).1
  cases h with
  | registerDisplayAttribute => exact he
  | enumDisplayAttributeInfo | clone => rw [List.getElem?_append_left hlt, he]
  | next | skip | reset =>
    rw [List.getElem?_set_ne fun heq => hmover (by simp [AttrEvent.mover, heq]), he]

/-- Without a `Reset`, a call passes entries from the cursor on and moves it behind them. -/
theorem passed_prefix (h : AttrStep s event t) (he : s.enumerators[i]? = some e)
    (hreset : event ≠ .reset i) :
    event.passed i <+: s.attrs.drop e.cursor ∧
      t.enumerators[i]? = some ⟨e.cursor + (event.passed i).length⟩ := by
  have hlt : i < s.enumerators.length := (List.getElem?_eq_some_iff.mp he).1
  by_cases hmover : event.mover = some i
  · cases h with
    | registerDisplayAttribute | enumDisplayAttributeInfo | clone => cases hmover
    | @next j ulcount e' hj =>
      cases hmover
      rw [he] at hj
      cases hj
      simp [AttrEvent.passed, EnumTfDisplayAttributeInfo.next_eq, List.take_prefix, hlt]
    | @skip j ulcount e' hj =>
      cases hmover
      rw [he] at hj
      cases hj
      simp [AttrEvent.passed, EnumTfDisplayAttributeInfo.skip_eq,
        EnumTfDisplayAttributeInfo.walk_eq, List.take_prefix, hlt]
    | @reset j =>
      cases hmover
      exact absurd rfl hreset
  · have hnone : event.passed i = [] := by
      cases h <;> simp_all [AttrEvent.mover, AttrEvent.passed]
    simpa [hnone] using h.enumerators_of_mover_ne he hmover

end AttrStep

/-! ## Runs -/

namespace AttrState

variable {s t : AttrState Guid DA} {events : List (AttrEvent Guid DA)} {i : Nat}
  {e : EnumTfDisplayAttributeInfo}

theorem guids_prefix_of_run (h : Run AttrStep s events t) : s.guids <+: t.guids :=
  h.invariant (I := fun t => s.guids <+: t.guids) List.prefix_rfl fun hpre hstep =>
    hpre.trans hstep.guids_prefix

theorem nodup_guids_of_run (h : Run AttrStep s events t) (hnodup : s.guids.Nodup) :
    t.guids.Nodup :=
  h.invariant (I := fun t => t.guids.Nodup) hnodup fun hnodup hstep => hstep.nodup_guids hnodup

/-- Enumerators are independent: the cursor of one is moved by its own calls only. -/
theorem enumerators_of_run (h : Run AttrStep s events t) (he : s.enumerators[i]? = some e)
    (hmover : ∀ event ∈ events, event.mover ≠ some i) : t.enumerators[i]? = some e := by
  induction h with
  | refl => exact he
  | tail _ hstep ih =>
    have hbefore := ih fun event hevent => hmover event (List.mem_append_left _ hevent)
    exact hstep.enumerators_of_mover_ne hbefore (hmover _ (by simp))

/-- What an enumerator passes without a `Reset` is a segment of the list, from its cursor on,
whatever else is called. -/
theorem passedBy_prefix_of_run (h : Run AttrStep s events t) (he : s.enumerators[i]? = some e)
    (hreset : .reset i ∉ events) :
    passedBy i events <+: t.guids.drop e.cursor ∧
      t.enumerators[i]? = some ⟨e.cursor + (passedBy i events).length⟩ := by
  induction h with
  | refl => simp [passedBy, he]
  | @tail t u events event _ hstep ih =>
    rw [List.mem_append, not_or, List.mem_singleton] at hreset
    obtain ⟨⟨rest, hrest⟩, hcursor⟩ := ih hreset.1
    obtain ⟨hpassed, hmoved⟩ := hstep.passed_prefix hcursor (Ne.symm hreset.2)
    have happend : passedBy i (events ++ [event]) =
        passedBy i events ++ (event.passed i).map (·.guid) := by
      simp [passedBy]
    -- what was passed before ends where the cursor stands now
    have hbehind : t.guids.drop (e.cursor + (passedBy i events).length) = rest := by
      rw [← List.drop_drop, ← hrest, List.drop_left]
    have hnew : (event.passed i).map (·.guid) <+: rest := by
      rw [← hbehind]
      simpa [guids] using hpassed.map (·.guid)
    constructor
    · rw [happend]
      refine List.IsPrefix.trans ?_ (hstep.guids_prefix.drop e.cursor)
      rw [← hrest]
      exact (List.prefix_append_right_inj _).mpr hnew
    · simp [happend, hmoved, Nat.add_assoc]

/-- What holds of the registry and its enumerators, from the state `s` on. -/
structure Enumerates (s : AttrState Guid DA) : Prop where
  nodup : s.guids.Nodup
  keeps : ∀ {events t}, Run AttrStep s events t → s.guids <+: t.guids
  /-- what `i` passes until the next `Reset` stands in one piece in the list -/
  consecutive : ∀ {events t i e}, Run AttrStep s events t → s.enumerators[i]? = some e →
    .reset i ∉ events → passedBy i events <+: t.guids.drop e.cursor ∧
      t.enumerators[i]? = some ⟨e.cursor + (passedBy i events).length⟩
  reset : ∀ {i t}, AttrStep s (.reset i) t → t.enumerators[i]? = some ⟨0⟩
  next : ∀ {i k reply t}, AttrStep s (.next i k reply) t →
    ∃ e, s.enumerators[i]? = some e ∧
      reply.rginfo = (s.attrs.drop e.cursor).take k ∧
      reply.pcfetched = min k (s.attrs.length - e.cursor) ∧
      (reply.ok = true ↔ k ≤ s.attrs.length - e.cursor) ∧
      t.enumerators[i]? = some ⟨e.cursor + min k (s.attrs.length - e.cursor)⟩
  skip : ∀ {i k passed ok t}, AttrStep s (.skip i k passed ok) t →
    ∃ e, s.enumerators[i]? = some e ∧
      passed = (s.attrs.drop e.cursor).take k ∧
      (ok = true ↔ k ≤ s.attrs.length - e.cursor) ∧
      t.enumerators[i]? = some ⟨e.cursor + min k (s.attrs.length - e.cursor)⟩
  /-- other calls that leave the list as it is may come in between -/
  nextNext : ∀ {i j k replyJ replyK replyJK t between u v w},
    AttrStep s (.next i j replyJ) t → Run AttrStep t between u →
    (∀ event ∈ between, event.mover ≠ some i) → u.attrs = t.attrs →
    AttrStep u (.next i k replyK) v → AttrStep s (.next i (j + k) replyJK) w →
    replyJ.rginfo ++ replyK.rginfo = replyJK.rginfo ∧
      replyJ.pcfetched + replyK.pcfetched = replyJK.pcfetched ∧
      (replyJ.ok && replyK.ok) = replyJK.ok ∧ v.enumerators[i]? = w.enumerators[i]?
  create : ∀ {t}, AttrStep s .enumDisplayAttributeInfo t →
    t.enumerators = s.enumerators ++ [⟨0⟩]
  clone : ∀ {i t}, AttrStep s (.clone i) t →
    ∃ e, s.enumerators[i]? = some e ∧ t.enumerators = s.enumerators ++ [e]
  /-- the original does not move its clone, nor the clone the original -/
  independent : ∀ {events t i e}, Run AttrStep s events t → s.enumerators[i]? = some e →
    (∀ event ∈ events, event.mover ≠ some i) → t.enumerators[i]? = some e

theorem enumerates_of_nodup (hnodup : s.guids.Nodup) : s.Enumerates where
  nodup := hnodup
  keeps := guids_prefix_of_run
  consecutive := passedBy_prefix_of_run
  reset := AttrStep.reset_spec
  next h := by
    obtain ⟨e, he, rfl, -, ht⟩ := h.next_spec
    rw [EnumTfDisplayAttributeInfo.next_eq] at ht ⊢
    exact ⟨e, he, rfl, rfl, decide_eq_true_iff, ht⟩
  skip h := by
    obtain ⟨e, he, rfl, rfl, ht⟩ := h.skip_spec
    rw [EnumTfDisplayAttributeInfo.skip_eq] at ht ⊢
    rw [EnumTfDisplayAttributeInfo.walk_eq]
    exact ⟨e, he, rfl, decide_eq_true_iff, ht⟩
  nextNext hj hbetween hmover hattrs hk hjk := by
    obtain ⟨e, he, rfl, hsame, ht⟩ := hj.next_spec
    have hu := enumerators_of_run hbetween ht hmover
    obtain ⟨e', he', rfl, -, hv⟩ := hk.next_spec
    obtain ⟨e'', he'', rfl, -, hw⟩ := hjk.next_spec
    -- the enumerator has not moved in between
    rw [hu] at he'
    cases he'
    rw [he] at he''
    cases he''
    rw [hattrs, hsame] at hv ⊢
    rw [EnumTfDisplayAttributeInfo.next_next] at hw ⊢
    exact ⟨rfl, rfl, rfl, by rw [hv, hw]⟩
  create h := by cases h; rfl
  clone := AttrStep.clone_spec
  independent := enumerators_of_run

/-- The registry starts empty, and without enumerators. -/
def initial : AttrState Guid DA := ⟨[], []⟩

/-- However the calls interleave, no GUID is registered twice or moves, and every enumerator
passes the list in order, on its own. -/
theorem enumerates_of_run (h : Run AttrStep initial events s) : s.Enumerates :=
  enumerates_of_nodup (nodup_guids_of_run h List.nodup_nil)

/-- Two attributes, of which the first is registered again while an enumerator stands between
them. -/
theorem enumerates_of_run_again :
    Enumerates (⟨[⟨1, true⟩, ⟨2, false⟩], [⟨1⟩]⟩ : AttrState Nat Bool) := by
  have hrun : Run AttrStep initial [.registerDisplayAttribute (some 7) 1 false,
      .registerDisplayAttribute (some 8) 2 false, .enumDisplayAttributeInfo,
      .next 0 1 ⟨[⟨1, false⟩], 1, true⟩, .registerDisplayAttribute (some 7) 1 true]
      (⟨[⟨1, true⟩, ⟨2, false⟩], [⟨1⟩]⟩ : AttrState Nat Bool) := by
    refine .head .registerDisplayAttribute ?_
    refine .head .registerDisplayAttribute ?_
    refine .head .enumDisplayAttributeInfo ?_
    refine .head (.next (e := ⟨0⟩) rfl) ?_
    exact .single .registerDisplayAttribute
  exact enumerates_of_run hrun

end AttrState

end Steps

end ChewingTsf
