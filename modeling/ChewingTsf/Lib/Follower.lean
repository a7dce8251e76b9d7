import Mathlib.Logic.Function.Basic
import ChewingTsf.Lib.Run

/-!
# A leader that reports its changes, and a follower that applies them

A leader changes by actions and reports each of them by a list of messages; a follower
applies the messages later, in order. `Tracks` says of a list of messages that it takes
every follower of the old leader to a follower of the new one, and `Refreshes` that it
takes any follower there, whatever it has missed; `AlwaysRefreshes` says so of all that may
be left of the messages.

`Following` puts the messages that are on their way between the two. The link can break,
and then what the leader does is not reported; the follower can start anew, and then what
is on its way is lost. `Following.inStep_run` gives the runs in which the follower is never
wrong, `Following.inStep_of_refreshes` the actions that mend it.

`SharedFollowing` has several leaders and one follower, and nothing orders what different
leaders have on their way. The follower can only be right for one of them:
`SharedFollowing.leads_run` says that it is the one whose message it applied last.
-/

namespace ChewingTsf

universe u v w x y

section Tracks

variable {σ : Type u} {α : Type v} {κ : Type w} {φ : Type x}
variable {apply : φ → κ → φ} {R : σ → φ → Prop} {s t r : σ} {cs ds : List κ}

/-- The messages `cs` take a follower of `s` to a follower of `t`. -/
def Tracks (apply : φ → κ → φ) (R : σ → φ → Prop) (s : σ) (cs : List κ) (t : σ) : Prop :=
  ∀ f, R s f → R t (cs.foldl apply f)

/-- The messages `cs` make any follower a follower of `t`. -/
def Refreshes (apply : φ → κ → φ) (R : σ → φ → Prop) (cs : List κ) (t : σ) : Prop :=
  ∀ f, R t (cs.foldl apply f)

theorem Tracks.refl (s : σ) : Tracks apply R s [] s := fun _ h => h

theorem Tracks.trans (h : Tracks apply R s cs t) (h' : Tracks apply R t ds r) :
    Tracks apply R s (cs ++ ds) r := by
  intro f hf
  rw [List.foldl_append]
  exact h' _ (h f hf)

theorem Refreshes.tracks (h : Refreshes apply R cs t) (s : σ) : Tracks apply R s cs t :=
  fun f _ => h f

theorem Refreshes.append (h : Refreshes apply R cs s) (h' : Tracks apply R s ds t) :
    Refreshes apply R (cs ++ ds) t := by
  intro f
  rw [List.foldl_append]
  exact h' _ (h f)

theorem Refreshes.after (h : Refreshes apply R cs t) (ds : List κ) :
    Refreshes apply R (ds ++ cs) t := by
  intro f
  rw [List.foldl_append]
  exact h _

/-- Whatever is left of the messages refreshes, if anything is left of them. -/
def AlwaysRefreshes (apply : φ → κ → φ) (R : σ → φ → Prop) (cs : List κ) (t : σ) : Prop :=
  ∀ ds, ds <:+ cs → ds ≠ [] → Refreshes apply R ds t

namespace AlwaysRefreshes

theorem nil (t : σ) : AlwaysRefreshes apply R [] t :=
  fun _ hsuffix hne => absurd (List.suffix_nil.mp hsuffix) hne

theorem single {c : κ} (h : Refreshes apply R [c] t) : AlwaysRefreshes apply R [c] t := by
  intro ds hsuffix hne
  rcases List.suffix_cons_iff.mp hsuffix with rfl | hnil
  · exact h
  · exact absurd (List.suffix_nil.mp hnil) hne

theorem refreshes (h : AlwaysRefreshes apply R cs t) (hne : cs ≠ []) : Refreshes apply R cs t :=
  h cs (List.suffix_refl cs) hne

theorem tail {c : κ} (h : AlwaysRefreshes apply R (c :: cs) t) : AlwaysRefreshes apply R cs t :=
  fun ds hsuffix hne => h ds (hsuffix.trans (List.suffix_cons c cs)) hne

/-- Where the messages are cut, all of the second part is left, or nothing of the first. -/
theorem of_append {P : List κ → Prop} (hboth : ∀ es, es <:+ cs → es ≠ [] → P (es ++ ds))
    (hsecond : ∀ es, es <:+ ds → P es) : ∀ es, es <:+ cs ++ ds → P es := by
  rintro es ⟨before, heq⟩
  rcases List.append_eq_append_iff.mp heq with ⟨left, hcs, hes⟩ | ⟨rest, -, hds⟩
  · rw [hes]
    by_cases hleft : left = []
    · rw [hleft]
      exact hsecond ds (List.suffix_refl ds)
    · exact hboth left ⟨before, hcs.symm⟩ hleft
  · exact hsecond es ⟨rest, hds.symm⟩

theorem append (h : AlwaysRefreshes apply R cs s) (h' : AlwaysRefreshes apply R ds t)
    (htracks : Tracks apply R s ds t) : AlwaysRefreshes apply R (cs ++ ds) t :=
  of_append (fun es hsuffix hne _ => (h es hsuffix hne).append htracks) h'

/-- What came before does not matter. -/
theorem after (h : AlwaysRefreshes apply R ds t) (hne : ds ≠ []) (cs : List κ) :
    AlwaysRefreshes apply R (cs ++ ds) t :=
  of_append (fun es _ _ _ => (h.refreshes hne).after es) h

end AlwaysRefreshes

/-! ## The messages of a list of actions -/

/-- What the leader reports while it takes the actions one after the other. -/
def reported (next : σ → α → σ) (reports : σ → α → List κ) : σ → List α → List κ
  | _, [] => []
  | s, a :: as => reports s a ++ reported next reports (next s a) as

variable {next : σ → α → σ} {reports : σ → α → List κ} {ok : σ → α → Prop}

/-- A follower that every single action keeps is kept by all of them. -/
theorem tracks_reported (hstep : ∀ s a, ok s a → Tracks apply R s (reports s a) (next s a))
    {as : List α} (h : Along ok next s as) :
    Tracks apply R s (reported next reports s as) (as.foldl next s) := by
  induction as generalizing s with
  | nil => exact .refl s
  | cons a as ih => exact (hstep s a h.1).trans (ih h.2)

/-- If what is left of every single report mends any follower, so does what is left of all. -/
theorem alwaysRefreshes_reported
    (hstep : ∀ s a, ok s a → Tracks apply R s (reports s a) (next s a))
    (hfresh : ∀ s a, ok s a → AlwaysRefreshes apply R (reports s a) (next s a))
    {as : List α} (h : Along ok next s as) :
    AlwaysRefreshes apply R (reported next reports s as) (as.foldl next s) := by
  induction as generalizing s with
  | nil => exact .nil s
  | cons a as ih => exact (hfresh s a h.1).append (ih h.2) (tracks_reported hstep h.2)

end Tracks

/-! ## Leader, messages and follower -/

/-- A leader, the messages that are on their way, and the follower. -/
structure Following (σ : Type u) (κ : Type w) (φ : Type x) where
  leader : σ
  /-- what the leader reports reaches the follower -/
  linked : Bool
  /-- the messages on their way, oldest first -/
  sent : List κ
  follower : φ

inductive FollowingStep (α : Type v) where
  | act (a : α)
  | deliver
  /-- the link breaks; of what is on its way, the first `kept` messages have left it already -/
  | «break» (kept : Nat)
  | link
  /-- the follower starts anew; what is on its way is lost -/
  | restart

namespace Following

variable {σ : Type u} {α : Type v} {κ : Type w} {φ : Type x}

section

variable (next : σ → α → σ) (reports : σ → α → List κ) (apply : φ → κ → φ) (fresh : φ)

/-- The state after a step. -/
def after (m : Following σ κ φ) : FollowingStep α → Following σ κ φ
  | .act a =>
    { m with
      leader := next m.leader a
      sent := if m.linked then m.sent ++ reports m.leader a else m.sent }
  | .deliver =>
    match m.sent with
    | [] => m
    | c :: rest => { m with sent := rest, follower := apply m.follower c }
  | .break kept => { m with linked := false, sent := m.sent.take kept }
  | .link => { m with linked := true }
  | .restart => { m with linked := false, sent := [], follower := fresh }

/-- A step is taken. -/
def Step (m : Following σ κ φ) (a : FollowingStep α) (m' : Following σ κ φ) : Prop :=
  m' = m.after next reports apply fresh a

/-- The follower will be one of the leader once it has what is on its way. -/
def InStep (apply : φ → κ → φ) (R : σ → φ → Prop) (m : Following σ κ φ) : Prop :=
  R m.leader (m.sent.foldl apply m.follower)

/-- Nothing is lost: there is a link when there is something to report, it breaks when nothing
is in it, and the follower starts anew only while the leader is as it was at first. -/
def Heard (R : σ → φ → Prop) (m : Following σ κ φ) : FollowingStep α → Prop
  | .act a => m.linked = true ∨ reports m.leader a = []
  | .break kept => m.sent.length ≤ kept
  | .restart => R m.leader fresh
  | .deliver | .link => True

end

variable {next : σ → α → σ} {reports : σ → α → List κ} {apply : φ → κ → φ} {fresh : φ}
  {R : σ → φ → Prop} {m m' : Following σ κ φ}

/-- An action that is reported, or has nothing to report. -/
theorem InStep.act (hact : ∀ s a, Tracks apply R s (reports s a) (next s a))
    (h : m.InStep apply R) {a : α} (hheard : m.linked = true ∨ reports m.leader a = []) :
    (m.after next reports apply fresh (.act a)).InStep apply R := by
  have htracks := hact m.leader a _ h
  show R (next m.leader a)
    ((if m.linked then m.sent ++ reports m.leader a else m.sent).foldl apply m.follower)
  rcases hheard with hlinked | hnothing
  · rw [if_pos hlinked, List.foldl_append]
    exact htracks
  · rw [hnothing, List.append_nil, ite_self]
    rwa [hnothing] at htracks

/-- **One step** in which nothing is lost. -/
theorem InStep.step (hact : ∀ s a, Tracks apply R s (reports s a) (next s a))
    (h : m.InStep apply R) {a : FollowingStep α} (hheard : m.Heard reports fresh R a) :
    (m.after next reports apply fresh a).InStep apply R := by
  cases a with
  | act a => exact h.act hact hheard
  | deliver =>
    unfold after
    cases hsent : m.sent with
    | nil => exact h
    | cons c rest =>
      unfold InStep at h
      rwa [hsent] at h
  | «break» kept =>
    show R m.leader ((m.sent.take kept).foldl apply m.follower)
    rw [List.take_of_length_le hheard]
    exact h
  | link => exact h
  | restart => exact hheard

/-- **Every run** in which nothing is lost. -/
theorem inStep_run (hact : ∀ s a, Tracks apply R s (reports s a) (next s a))
    {ls : List (FollowingStep α)} (h : m.InStep apply R)
    (hrun : Run (Guarded (Heard reports fresh R) (Step next reports apply fresh)) m ls m') :
    m'.InStep apply R := by
  refine hrun.invariant h ?_
  rintro m a _ hm ⟨hheard, rfl⟩
  exact hm.step hact hheard

/-- **An action that mends** the follower, whatever was lost before. -/
theorem inStep_of_refreshes {a : α} (hlinked : m.linked = true)
    (h : Refreshes apply R (reports m.leader a) (next m.leader a)) :
    (m.after next reports apply fresh (.act a)).InStep apply R := by
  show R (next m.leader a)
    ((if m.linked then m.sent ++ reports m.leader a else m.sent).foldl apply m.follower)
  rw [if_pos hlinked, List.foldl_append]
  exact h _

end Following

/-! ## Leaders that share a follower -/

/-- Several leaders, the messages of each that are on their way, and the follower. -/
structure SharedFollowing (ι : Type y) (σ : Type u) (κ : Type w) (φ : Type x) where
  leader : ι → σ
  linked : ι → Bool
  sent : ι → List κ
  follower : φ
  /-- whose message the follower applied last, since it started -/
  last : Option ι

inductive SharedFollowingStep (ι : Type y) (α : Type v) where
  | act (i : ι) (a : α)
  | deliver (i : ι)
  | «break» (i : ι) (kept : Nat)
  | link (i : ι)
  /-- the follower starts anew; what is on its way is lost -/
  | restart

namespace SharedFollowing

variable {ι : Type y} {σ : Type u} {α : Type v} {κ : Type w} {φ : Type x} [DecidableEq ι]

/-- The follower applies the oldest message of `i`. -/
def delivered (apply : φ → κ → φ) (i : ι) (m : SharedFollowing ι σ κ φ) :
    SharedFollowing ι σ κ φ :=
  match m.sent i with
  | [] => m
  | c :: rest =>
    { m with
      sent := Function.update m.sent i rest
      follower := apply m.follower c
      last := some i }

section

variable (next : σ → α → σ) (reports : σ → α → List κ) (apply : φ → κ → φ) (fresh : φ)

/-- The state after a step. -/
def after (m : SharedFollowing ι σ κ φ) : SharedFollowingStep ι α → SharedFollowing ι σ κ φ
  | .act i a =>
    { m with
      leader := Function.update m.leader i (next (m.leader i) a)
      sent := if m.linked i then
        Function.update m.sent i (m.sent i ++ reports (m.leader i) a) else m.sent }
  | .deliver i => m.delivered apply i
  | .break i kept =>
    { m with
      linked := Function.update m.linked i false
      sent := Function.update m.sent i ((m.sent i).take kept) }
  | .link i => { m with linked := Function.update m.linked i true }
  | .restart => ⟨m.leader, fun _ => false, fun _ => [], fresh, none⟩

/-- A step is taken. -/
def Step (m : SharedFollowing ι σ κ φ) (a : SharedFollowingStep ι α)
    (m' : SharedFollowing ι σ κ φ) : Prop :=
  m' = m.after next reports apply fresh a

omit [DecidableEq ι] in
/-- Nothing of `i` is lost in its link or for want of one. The others may lose what they like,
and the follower may start anew. -/
def Heard (i : ι) (m : SharedFollowing ι σ κ φ) : SharedFollowingStep ι α → Prop
  | .act j a => j = i → m.linked i = true ∨ reports (m.leader i) a = []
  | .break j kept => j = i → (m.sent i).length ≤ kept
  | .deliver _ | .link _ | .restart => True

end

omit [DecidableEq ι] in
/-- The follower will be one of `i` when it applies a message of `i`, unless another's follows. -/
structure Leads (apply : φ → κ → φ) (R : σ → φ → Prop) (i : ι) (m : SharedFollowing ι σ κ φ) :
    Prop where
  coming : AlwaysRefreshes apply R (m.sent i) (m.leader i)
  last : m.last = some i → R (m.leader i) ((m.sent i).foldl apply m.follower)

variable {next : σ → α → σ} {reports : σ → α → List κ} {apply : φ → κ → φ} {fresh : φ}
  {R : σ → φ → Prop} {m m' : SharedFollowing ι σ κ φ} {i : ι}

omit [DecidableEq ι] in
/-- Who has sent nothing leads. -/
theorem leads_of_nil (hsent : m.sent i = []) (hlast : m.last ≠ some i) : m.Leads apply R i where
  coming := hsent ▸ .nil _
  last h := absurd h hlast

theorem leader_act (a : α) :
    (m.after next reports apply fresh (.act i a)).leader i = next (m.leader i) a :=
  Function.update_self i _ _

theorem sent_act (a : α) :
    (m.after next reports apply fresh (.act i a)).sent i
      = if m.linked i then m.sent i ++ reports (m.leader i) a else m.sent i := by
  show (if m.linked i then Function.update m.sent i _ else m.sent) i = _
  split
  · exact Function.update_self i _ _
  · rfl

theorem leader_act_of_ne {j : ι} (hne : i ≠ j) (a : α) :
    (m.after next reports apply fresh (.act j a)).leader i = m.leader i :=
  Function.update_of_ne hne _ _

theorem sent_act_of_ne {j : ι} (hne : i ≠ j) (a : α) :
    (m.after next reports apply fresh (.act j a)).sent i = m.sent i := by
  show (if m.linked j then Function.update m.sent j _ else m.sent) i = _
  split
  · exact Function.update_of_ne hne _ _
  · rfl

/-- An action of `i` that is reported, or has nothing to report. -/
theorem Leads.act (hact : ∀ s a, Tracks apply R s (reports s a) (next s a))
    (hfresh : ∀ s a, AlwaysRefreshes apply R (reports s a) (next s a)) (h : m.Leads apply R i)
    {a : α} (hheard : m.linked i = true ∨ reports (m.leader i) a = []) :
    (m.after next reports apply fresh (.act i a)).Leads apply R i := by
  have hsent : (m.after next reports apply fresh (.act i a)).sent i
      = m.sent i ++ reports (m.leader i) a := by
    rw [sent_act]
    rcases hheard with hlinked | hnothing
    · rw [if_pos hlinked]
    · rw [hnothing, List.append_nil, ite_self]
  constructor
  · rw [leader_act, hsent]
    exact h.coming.append (hfresh _ _) (hact _ _)
  · intro hlast
    rw [leader_act, hsent, List.foldl_append]
    exact hact _ _ _ (h.last hlast)

/-- **An action that mends**: `i` leads from here on, whatever was lost before. -/
theorem leads_of_reports {a : α} (hlinked : m.linked i = true)
    (hfresh : AlwaysRefreshes apply R (reports (m.leader i) a) (next (m.leader i) a))
    (hne : reports (m.leader i) a ≠ []) :
    (m.after next reports apply fresh (.act i a)).Leads apply R i := by
  have hcoming := hfresh.after hne (m.sent i)
  constructor
  · rw [leader_act, sent_act, if_pos hlinked]
    exact hcoming
  · intro _
    rw [leader_act, sent_act, if_pos hlinked]
    exact hcoming.refreshes (List.append_ne_nil_of_right_ne_nil _ hne) _

theorem linked_delivered (apply : φ → κ → φ) (j : ι) :
    (m.delivered apply j).linked = m.linked := by
  unfold delivered
  split <;> rfl

theorem Leads.delivered (h : m.Leads apply R i) (j : ι) :
    (m.delivered apply j).Leads apply R i := by
  cases hsent : m.sent j with
  | nil =>
    have hsame : m.delivered apply j = m := by
      rw [SharedFollowing.delivered, hsent]
    rwa [hsame]
  | cons c rest =>
    have hdelivered : m.delivered apply j = { m with
        sent := Function.update m.sent j rest
        follower := apply m.follower c
        last := some j } := by
      rw [SharedFollowing.delivered, hsent]
    rw [hdelivered]
    by_cases hij : i = j
    · -- the message and those behind it refresh the follower
      subst hij
      have hcoming := h.coming
      rw [hsent] at hcoming
      constructor
      · show AlwaysRefreshes apply R (Function.update m.sent i rest i) (m.leader i)
        rw [Function.update_self]
        exact hcoming.tail
      · intro _
        show R (m.leader i) ((Function.update m.sent i rest i).foldl apply (apply m.follower c))
        rw [Function.update_self]
        exact hcoming.refreshes (List.cons_ne_nil c rest) m.follower
    · constructor
      · show AlwaysRefreshes apply R (Function.update m.sent j rest i) (m.leader i)
        rw [Function.update_of_ne hij]
        exact h.coming
      · -- the last message is not one of `i`
        intro hlast
        exact absurd (Option.some.inj hlast).symm hij

/-- **One step** in which nothing of `i` is lost. -/
theorem Leads.step (hact : ∀ s a, Tracks apply R s (reports s a) (next s a))
    (hfresh : ∀ s a, AlwaysRefreshes apply R (reports s a) (next s a)) (h : m.Leads apply R i)
    {a : SharedFollowingStep ι α} (hheard : m.Heard reports i a) :
    (m.after next reports apply fresh a).Leads apply R i := by
  cases a with
  | act j a =>
    by_cases hij : i = j
    · subst hij
      exact h.act hact hfresh (hheard rfl)
    · refine ⟨?_, fun hlast => ?_⟩
      · rw [leader_act_of_ne hij, sent_act_of_ne hij]
        exact h.coming
      · rw [leader_act_of_ne hij, sent_act_of_ne hij]
        exact h.last hlast
  | deliver j => exact h.delivered j
  | «break» j kept =>
    -- a break of its own connection loses none of the messages of `i`
    have hsent : Function.update m.sent j ((m.sent j).take kept) i = m.sent i := by
      by_cases hij : i = j
      · subst hij
        rw [Function.update_self, List.take_of_length_le (hheard rfl)]
      · exact Function.update_of_ne hij _ _
    constructor
    · show AlwaysRefreshes apply R (Function.update m.sent j ((m.sent j).take kept) i) (m.leader i)
      rw [hsent]
      exact h.coming
    · intro hlast
      show R (m.leader i)
        ((Function.update m.sent j ((m.sent j).take kept) i).foldl apply m.follower)
      rw [hsent]
      exact h.last hlast
  | link j => exact ⟨h.coming, h.last⟩
  | restart => exact ⟨.nil _, nofun⟩

/-- **Every run** in which nothing of `i` is lost. -/
theorem leads_run (hact : ∀ s a, Tracks apply R s (reports s a) (next s a))
    (hfresh : ∀ s a, AlwaysRefreshes apply R (reports s a) (next s a)) (h : m.Leads apply R i)
    {ls : List (SharedFollowingStep ι α)}
    (hrun : Run (Guarded (Heard reports i) (Step next reports apply fresh)) m ls m') :
    m'.Leads apply R i := by
  refine hrun.invariant h ?_
  rintro m a _ hm ⟨hheard, rfl⟩
  exact hm.step hact hfresh hheard

end SharedFollowing

end ChewingTsf
