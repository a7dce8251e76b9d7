import ChewingTsf.Lib.Follower
import ChewingTsf.Tip.ListCalls

/-!
# The UI element of the candidate list

TSF keeps the UI elements of a text service from `BeginUIElement` to `EndUIElement`, by
ids of its own, and tells the application of them. The service begins one when it opens
its candidate list and remembers its id in the list (`element_id`). Whatever TSF and the
application call, this element is open exactly while the service holds a list: none is begun
for a list while that of another is open, and none is updated or ended that is not.

A notification is an element as well, with an id of its own that only it uses. They are not
followed here: `show_message` begins one for each notice, and does not end the one that it
replaces.
-/

namespace ChewingTsf

/-! ## What reaches the candidate list -/

/-- A call of TSF, or the application takes the drawing of the list over or gives it back. -/
inductive ListEvent where
  | call (c : KeyboardCall)
  | showUiElement (shown : Bool)

namespace ListEvent

variable {E : Type} [EditorCommands E] [KeyCodes]

def listCalls (k : Keyboard E) : ListEvent → List ListCall
  | call c => c.listCalls k
  | showUiElement shown =>
    if k.tip.candidateList.isSome then [.showUiElement shown] else []

/-- The service after the event. -/
def next (zhconv : Str → Str) (k : Keyboard E) : ListEvent → Keyboard E
  | call c => c.next zhconv k
  | showUiElement shown =>
    let list := k.tip.candidateList.map (·.showUiElement shown)
    { k with tip := { k.tip with candidateList := list } }

/-- What the calls of the candidate list report, each by `reports`. -/
def reports {κ : Type*} (reports : Option CandidateList → ListCall → List κ) (k : Keyboard E)
    (e : ListEvent) : List κ :=
  reported ListCall.next reports k.tip.candidateList (e.listCalls k)

theorem next_listCalls (zhconv : Str → Str) (k : Keyboard E) (e : ListEvent) :
    ListRun k.tip.candidateList (e.listCalls k) (e.next zhconv k).tip.candidateList := by
  cases e with
  | call c => exact c.next_listCalls zhconv k
  | showUiElement shown =>
    show ListRun k.tip.candidateList (if _ then _ else _) (k.tip.candidateList.map _)
    cases k.tip.candidateList with
    | none => exact .refl none
    | some list => exact .single (c := .showUiElement shown) rfl

variable {κ φ : Type*} {apply : φ → κ → φ} {R : Option CandidateList → φ → Prop}
  {f : Option CandidateList → ListCall → List κ}

/-- A follower that every call of the list keeps is kept by every event. -/
theorem tracks (zhconv : Str → Str)
    (hcall : ∀ l c, ListCall.Possible l c → Tracks apply R l (f l c) (c.next l))
    (k : Keyboard E) (e : ListEvent) :
    Tracks apply (fun k => R k.tip.candidateList) k (e.reports f k) (e.next zhconv k) := by
  obtain ⟨hpossible, hlist⟩ := e.next_listCalls zhconv k
  intro m hm
  show R (e.next zhconv k).tip.candidateList _
  rw [← hlist]
  exact tracks_reported hcall hpossible m hm

/-- If what is left of a call's report mends any follower, so does what is left of an event's. -/
theorem alwaysRefreshes (zhconv : Str → Str)
    (hcall : ∀ l c, ListCall.Possible l c → Tracks apply R l (f l c) (c.next l))
    (hfresh : ∀ l c, ListCall.Possible l c → AlwaysRefreshes apply R (f l c) (c.next l))
    (k : Keyboard E) (e : ListEvent) :
    AlwaysRefreshes apply (fun k => R k.tip.candidateList) (e.reports f k)
      (e.next zhconv k) := by
  obtain ⟨hpossible, hlist⟩ := e.next_listCalls zhconv k
  intro ds hsuffix hne m
  show R (e.next zhconv k).tip.candidateList _
  rw [← hlist]
  exact alwaysRefreshes_reported hcall hfresh hpossible ds hsuffix hne m

end ListEvent

/-! ## The elements -/

/-- What `ITfUIElementMgr` keeps for the candidate lists of the service, and the id in its
list. -/
structure UiElements where
  /-- the elements of lists that have been begun and not been ended -/
  «open» : List Nat
  /-- how many have been begun -/
  begun : Nat
  /-- `element_id` -/
  elementId : Nat
  /-- an element was begun while another was open, or one was updated or ended that was
  not open -/
  misused : Bool

namespace UiElements

def init : UiElements := ⟨[], 0, 0, false⟩

/-- The answer to a request; `ids` are the ids that TSF gives the elements, in order. -/
def answer (ids : Nat → Nat) (m : UiElements) : UiRequest → UiElements
  | .beginUiElement =>
    { «open» := ids m.begun :: m.open
      begun := m.begun + 1
      elementId := ids m.begun
      misused := m.misused || !m.open.isEmpty }
  | .updateUiElement => { m with misused := m.misused || !m.open.contains m.elementId }
  | .endUiElement =>
    { m with
      «open» := m.open.erase m.elementId
      misused := m.misused || !m.open.contains m.elementId }
  | .showCandidateList _ | .hideCandidateList => m

/-- One element is open if there is a list, and none if there is not. -/
structure Balanced (l : Option CandidateList) (m : UiElements) : Prop where
  «open» : m.open = if l.isSome then [m.elementId] else []
  used : m.misused = false

theorem balanced_init : Balanced none init := ⟨rfl, rfl⟩

/-- **One call** of the list. -/
theorem tracks_balanced [KeyTables] (ids : Nat → Nat) (l : Option CandidateList)
    (c : ListCall) (h : c.Possible l) :
    Tracks (answer ids) Balanced l (c.requests l) (c.next l) := by
  rintro ⟨elements, begun, elementId, misused⟩ ⟨hopen, hused⟩
  replace hused : misused = false := hused
  subst hused
  cases c with
  | new shouldShow =>
    obtain rfl : l = none := h
    replace hopen : elements = [] := hopen
    subst hopen
    cases shouldShow <;> exact ⟨rfl, rfl⟩
  | refresh model =>
    obtain ⟨list, rfl⟩ := Option.isSome_iff_exists.mp h
    replace hopen : elements = [elementId] := hopen
    subst hopen
    exact ⟨rfl, by simp [ListCall.requests, answer]⟩
  | filterKeyEvent ksym =>
    obtain ⟨list, rfl⟩ := Option.isSome_iff_exists.mp h
    replace hopen : elements = [elementId] := hopen
    subst hopen
    simp only [ListCall.requests]
    split <;> exact ⟨rfl, by simp [answer]⟩
  | endUiElement =>
    obtain ⟨list, rfl⟩ := Option.isSome_iff_exists.mp h
    replace hopen : elements = [elementId] := hopen
    subst hopen
    exact ⟨by simp [ListCall.requests, ListCall.next, answer],
      by simp [ListCall.requests, answer]⟩
  | showUiElement shown =>
    obtain ⟨list, rfl⟩ := Option.isSome_iff_exists.mp h
    cases shown <;> exact ⟨hopen, rfl⟩

end UiElements

section

variable {E : Type} [EditorCommands E] [KeyCodes]

/-- The elements after the events, from activation on. -/
def Keyboard.uiElements (ids : Nat → Nat) (zhconv : Str → Str) (k : Keyboard E)
    (events : List ListEvent) : UiElements :=
  (reported (ListEvent.next zhconv) (fun k e => e.reports ListCall.requests k) k events).foldl
    (UiElements.answer ids) .init

/-- **Whatever is called**, one element is open exactly while there is a candidate list,
and no other is ever begun, updated or ended for one. -/
theorem Keyboard.uiElements_balanced (ids : Nat → Nat) (zhconv : Str → Str)
    (env : ActivateEnv) (editor : E) (document : Document) (grant : Grant)
    (openclose : Option Int) (events : List ListEvent) :
    UiElements.Balanced
      (events.foldl (ListEvent.next zhconv)
        (activate env editor document grant openclose)).tip.candidateList
      ((activate env editor document grant openclose).uiElements ids zhconv events) := by
  have hevent := ListEvent.tracks (E := E) zhconv (UiElements.tracks_balanced ids)
  have hstart : UiElements.Balanced
      (activate env editor document grant openclose).tip.candidateList .init := by
    rw [activate_candidateList]
    exact UiElements.balanced_init
  have halong : Along (fun (_ : Keyboard E) (_ : ListEvent) => True) (ListEvent.next zhconv)
      (activate env editor document grant openclose) events :=
    .of_forall (fun _ _ => trivial) _ _
  exact tracks_reported (fun k e _ => hevent k e) halong _ hstart

end

end ChewingTsf
