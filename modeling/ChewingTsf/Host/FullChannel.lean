import Mathlib.Data.Fintype.Card
import ChewingTsf.Host.EventLoop

/-!
# The full channel (crates/chewing_tip_host/src/ui/event_loop.rs)

The channel holds 130 commands, and a thread that finds it full waits in `send` until the main
loop makes room. The thread has posted its wake-up before, but a drain may have used it up
while the thread was on its way. Then it is the wake-ups of others that the thread depends on.

`Host.makesRoom_iff` counts: while no wake-up is queued, the commands on the channel are those
of threads that were on their way at the last drain, and so are the threads that still are.
Together they are no more than there are threads. Up to 130 threads, a thread that waits at the
full channel is therefore never left to others, whatever the interleaving. With one thread more
it can be. `Host.leftBehind_iff` says how many commands lost wake-ups can leave on the channel
when everything has come to rest.
-/

namespace ChewingTsf

universe u v

variable {ι : Type u} {Value : Type v} [DecidableEq ι]

/-- The steps that the main loop takes of itself. -/
def HostStep.isMain : HostStep ι Value → Bool
  | .retrieve | .receive | .drained => true
  | _ => false

theorem afterRetrieve_of_isAppCommand {m : Msg} (h : m.isAppCommand = true) :
    MainPc.afterRetrieve m ≠ .getMessage := by
  unfold MainPc.afterRetrieve
  by_cases hquit : m.message = WM_QUIT
  · rw [if_pos hquit]
    nofun
  · rw [if_neg hquit, if_pos h]
    nofun

namespace Host

/-- The main loop alone gets to where there is room on the channel, or the process has ended. -/
def MakesRoom (s : Host ι Value) : Prop :=
  ∃ ls s', (∀ a ∈ ls, HostStep.isMain a = true) ∧ Run Host.Step s ls s' ∧
    (s'.channel.length < channelBound ∨ s'.main = .exited)

variable {s t : Host ι Value}

/-! ## At most as many threads as the channel has room for -/

section Count

variable [Fintype ι]

omit [DecidableEq ι] in
/-- The threads inside `send` that have posted their wake-up. -/
def senders (s : Host ι Value) : Finset ι := Finset.univ.filter fun i => (s.sending i).isSome

omit [DecidableEq ι] in
theorem mem_senders {i : ι} : i ∈ s.senders ↔ (s.sending i).isSome = true := by
  simp [senders]

/-- While nobody wakes the main loop, the commands on the channel and the threads on their way
are no more than there are threads. -/
structure Counted (s : Host ι Value) : Prop where
  bound : s.channel.length ≤ channelBound
  asleep : s.main = .getMessage → ¬ s.WakeUpQueued →
    s.channel.length + s.senders.card ≤ Fintype.card ι

omit [DecidableEq ι] in
theorem counted_init : (Host.init ι Value).Counted := by
  have hnobody : (Host.init ι Value).senders = ∅ := by
    rw [Finset.eq_empty_iff_forall_notMem]
    intro i hi
    exact absurd (mem_senders.mp hi) nofun
  refine ⟨Nat.zero_le _, fun _ _ => ?_⟩
  rw [hnobody]
  exact Nat.zero_le _

/-- **One step.** -/
theorem Counted.step {a : HostStep ι Value} (h : s.Counted) (hstep : Host.Step s a t) :
    t.Counted := by
  cases hstep with
  | post hidle =>
    refine ⟨h.bound, fun _ hasleep => absurd ?_ hasleep⟩
    exact ⟨Msg.appCommand, List.mem_append_right _ (List.mem_singleton_self _), rfl⟩
  | postFails => exact h
  | @enqueue i cmd hsending hroom =>
    constructor
    · show (s.channel ++ [cmd]).length ≤ channelBound
      rw [List.length_append]
      exact hroom
    · -- the thread leaves, its command stays
      intro hmain hasleep
      have hbefore := h.asleep hmain hasleep
      have hin : i ∈ s.senders := mem_senders.mpr (by rw [hsending]; rfl)
      have hleft : senders { s with
          channel := s.channel ++ [cmd]
          sent := s.sent ++ [cmd]
          sending := fun j => if j = i then none else s.sending j } = s.senders.erase i := by
        ext j
        rw [mem_senders, Finset.mem_erase, mem_senders]
        by_cases hji : j = i
        · simp [hji]
        · simp [hji]
      rw [hleft]
      have hcard := Finset.card_erase_add_one hin
      show (s.channel ++ [cmd]).length + _ ≤ _
      rw [List.length_append, List.length_singleton]
      omega
  | windowMessage =>
    refine ⟨h.bound, fun hmain hasleep => h.asleep hmain fun hqueued => hasleep ?_⟩
    exact hqueued.append rfl
  | @retrieve m rest hmain hmsg =>
    refine ⟨h.bound, fun hmain' hasleep => h.asleep hmain ?_⟩
    -- a wake-up that is retrieved takes the main loop out of `GetMessageW`
    rintro ⟨w, hw, hcmd⟩
    rw [hmsg] at hw
    rcases List.mem_cons.mp hw with rfl | hrest
    · exact afterRetrieve_of_isAppCommand hcmd hmain'
    · exact hasleep ⟨w, hrest, hcmd⟩
  | windowExit => exact ⟨h.bound, nofun⟩
  | @receive cmd rest hmain hchan =>
    refine ⟨?_, fun hmain' => ?_⟩
    · have hbound := h.bound
      rw [hchan] at hbound
      exact Nat.le_of_succ_le hbound
    · change (if cmd.method = Stop.METHOD then MainPc.exited else .commandLoop) = .getMessage
        at hmain'
      split at hmain' <;> cases hmain'
  | drained _ hchan =>
    refine ⟨h.bound, fun _ _ => ?_⟩
    show s.channel.length + s.senders.card ≤ _
    rw [hchan, List.length_nil, Nat.zero_add]
    exact Finset.card_le_univ _

theorem counted_run {ls : List (HostStep ι Value)}
    (h : Run Host.Step (Host.init ι Value) ls s) : s.Counted :=
  h.invariant counted_init fun hs hstep => hs.step hstep

end Count

/-! ## The main loop makes room -/

/-- A wake-up that is queued will be retrieved, if the messages before it do not end the loop. -/
theorem WakeUpQueued.retrieved (hmain : s.main = .getMessage) (h : s.WakeUpQueued) :
    ∃ ls s', (∀ a ∈ ls, HostStep.isMain a = true) ∧ Run Host.Step s ls s' ∧
      s'.channel = s.channel ∧ s'.main ≠ .getMessage := by
  generalize hms : s.messages = ms
  induction ms generalizing s with
  | nil =>
    obtain ⟨w, hw, -⟩ := h
    rw [hms] at hw
    cases hw
  | cons m rest ih =>
    have hstep : Host.Step s .retrieve { s with messages := rest, main := .afterRetrieve m } :=
      .retrieve hmain hms
    by_cases hafter : MainPc.afterRetrieve m = .getMessage
    · -- the message is another: the wake-up comes later
      have hlater : WakeUpQueued { s with messages := rest, main := .afterRetrieve m } := by
        obtain ⟨w, hw, hcmd⟩ := h
        rw [hms] at hw
        rcases List.mem_cons.mp hw with rfl | hrest
        · exact absurd hafter (afterRetrieve_of_isAppCommand hcmd)
        · exact ⟨w, hrest, hcmd⟩
      obtain ⟨ls, s', hls, hrun, hchannel, hawake⟩ := ih hafter hlater rfl
      exact ⟨_, s', List.forall_mem_cons.mpr ⟨rfl, hls⟩, .head hstep hrun, hchannel, hawake⟩
    · exact ⟨[.retrieve], _, by simp [HostStep.isMain], .single hstep, rfl, hafter⟩

/-- A main loop that is awake takes a command off a full channel. -/
theorem makesRoom_of_awake (hbound : s.channel.length ≤ channelBound)
    (hawake : s.main ≠ .getMessage) : s.MakesRoom := by
  cases hmain : s.main with
  | getMessage => exact absurd hmain hawake
  | exited => exact ⟨[], s, nofun, .refl s, .inr hmain⟩
  | commandLoop =>
    cases hchannel : s.channel with
    | nil => exact ⟨[], s, nofun, .refl s, .inl (by rw [hchannel]; exact Nat.succ_pos 129)⟩
    | cons cmd rest =>
      rw [hchannel] at hbound
      exact ⟨[.receive], _, by simp [HostStep.isMain], .single (.receive hmain hchannel), .inl hbound⟩

theorem MakesRoom.of_run {ls : List (HostStep ι Value)} (hls : ∀ a ∈ ls, HostStep.isMain a = true)
    (hrun : Run Host.Step s ls t) (h : t.MakesRoom) : s.MakesRoom := by
  obtain ⟨ms, s', hms, hrun', hroom⟩ := h
  exact ⟨ls ++ ms, s', fun a ha => (List.mem_append.mp ha).elim (hls a) (hms a),
    hrun.trans hrun', hroom⟩

theorem Counted.makesRoom [Fintype ι] (h : s.Counted) (hthreads : Fintype.card ι ≤ channelBound)
    (hin : s.InSend) : s.MakesRoom := by
  by_cases hawake : s.main = .getMessage
  · by_cases hqueued : s.WakeUpQueued
    · obtain ⟨ls, t, hls, hrun, hchannel, hmain⟩ := hqueued.retrieved hawake
      exact .of_run hls hrun (makesRoom_of_awake (hchannel ▸ h.bound) hmain)
    · -- a thread on its way takes the place of a command
      obtain ⟨i, hi⟩ := hin
      have hsender : i ∈ s.senders := mem_senders.mpr (Option.isSome_iff_ne_none.mpr hi)
      have hpos := Finset.card_pos.mpr ⟨i, hsender⟩
      have hcount := h.asleep hawake hqueued
      exact ⟨[], s, nofun, .refl s, .inl (by omega)⟩
  · exact makesRoom_of_awake h.bound hawake

/-! ## One thread more -/

/-- Every thread of a list posts its wake-up. -/
theorem exists_posts (cmd : MethodCall Value) {is : List ι} (hnodup : is.Nodup)
    (hidle : ∀ i ∈ is, s.sending i = none) :
    ∃ ls t, Run Host.Step s ls t ∧ t.channel = s.channel ∧ t.main = s.main ∧
      t.messages = s.messages ++ List.replicate is.length Msg.appCommand ∧
      (∀ i ∈ is, t.sending i = some cmd) ∧ ∀ i, i ∉ is → t.sending i = s.sending i := by
  induction is generalizing s with
  | nil => exact ⟨[], s, .refl s, rfl, rfl, (List.append_nil _).symm, nofun, fun _ _ => rfl⟩
  | cons i is ih =>
    obtain ⟨hi, hnodup⟩ := List.nodup_cons.mp hnodup
    have hpost : Host.Step s (.post i cmd) { s with
        messages := s.messages ++ [Msg.appCommand]
        sending := fun j => if j = i then some cmd else s.sending j } :=
      .post (hidle i (List.mem_cons_self ..))
    obtain ⟨ls, t, hrun, hchannel, hmain, hmessages, hsending, hothers⟩ := ih hnodup (s := { s with
        messages := s.messages ++ [Msg.appCommand]
        sending := fun j => if j = i then some cmd else s.sending j }) (by
      intro j hj
      have hji : j ≠ i := fun heq => hi (heq ▸ hj)
      exact (if_neg hji).trans (hidle j (List.mem_cons_of_mem i hj)))
    refine ⟨_, t, .head hpost hrun, hchannel, hmain, ?_, fun j hj => ?_, fun j hj => ?_⟩
    · rw [hmessages, List.append_assoc, List.length_cons, List.replicate_succ]
      rfl
    · rcases List.mem_cons.mp hj with rfl | hj
      · exact (hothers j hi).trans (if_pos rfl)
      · exact hsending j hj
    · rw [List.mem_cons, not_or] at hj
      exact (hothers j hj.2).trans (if_neg hj.1)

/-- The main loop uses up wake-ups on an empty channel. -/
theorem exists_drains {n : Nat} (hmain : s.main = .getMessage) (hchannel : s.channel = [])
    (hmessages : s.messages = List.replicate n Msg.appCommand) :
    ∃ ls t, Run Host.Step s ls t ∧ t.main = .getMessage ∧ t.channel = [] ∧ t.messages = [] ∧
      t.sending = s.sending := by
  induction n generalizing s with
  | zero => exact ⟨[], s, .refl s, hmain, hchannel, hmessages, rfl⟩
  | succ n ih =>
    have hretrieve : Host.Step s .retrieve { s with
        messages := List.replicate n Msg.appCommand, main := .commandLoop } :=
      .retrieve hmain hmessages
    have hdrain : Host.Step { s with
        messages := List.replicate n Msg.appCommand, main := .commandLoop } .drained { s with
        messages := List.replicate n Msg.appCommand, main := .getMessage } :=
      .drained rfl hchannel
    obtain ⟨ls, t, hrun, hlater⟩ := ih (s := { s with
      messages := List.replicate n Msg.appCommand, main := .getMessage }) rfl hchannel rfl
    exact ⟨_, t, .head hretrieve (.head hdrain hrun), hlater⟩

/-- Threads that have posted put their commands on the channel. -/
theorem exists_enqueues {is : List ι} (hnodup : is.Nodup)
    (hsending : ∀ i ∈ is, s.sending i ≠ none)
    (hroom : s.channel.length + is.length ≤ channelBound) :
    ∃ ls t, Run Host.Step s ls t ∧ t.main = s.main ∧ t.messages = s.messages ∧
      t.channel.length = s.channel.length + is.length ∧ (∀ i ∈ is, t.sending i = none) ∧
      ∀ i, i ∉ is → t.sending i = s.sending i := by
  induction is generalizing s with
  | nil => exact ⟨[], s, .refl s, rfl, rfl, rfl, nofun, fun _ _ => rfl⟩
  | cons i is ih =>
    obtain ⟨hi, hnodup⟩ := List.nodup_cons.mp hnodup
    obtain ⟨cmd, hcmd⟩ := Option.ne_none_iff_exists'.mp (hsending i (List.mem_cons_self ..))
    rw [List.length_cons] at hroom
    have henqueue : Host.Step s (.enqueue i) { s with
        channel := s.channel ++ [cmd]
        sent := s.sent ++ [cmd]
        sending := fun j => if j = i then none else s.sending j } :=
      .enqueue hcmd (by omega)
    -- the first one goes in; the room that is left is enough for the others
    obtain ⟨ls, t, hrun, hmain, hmessages, hlength, hdone, hothers⟩ := ih hnodup (s := { s with
        channel := s.channel ++ [cmd]
        sent := s.sent ++ [cmd]
        sending := fun j => if j = i then none else s.sending j }) (by
      intro j hj
      have hji : j ≠ i := fun heq => hi (heq ▸ hj)
      exact (if_neg hji).trans_ne (hsending j (List.mem_cons_of_mem i hj))) (by
      rw [List.length_append, List.length_singleton]
      omega)
    refine ⟨_, t, .head henqueue hrun, hmain, hmessages, ?_, fun j hj => ?_, fun j hj => ?_⟩
    · rw [hlength, List.length_append, List.length_singleton, List.length_cons]
      omega
    · rcases List.mem_cons.mp hj with rfl | hj
      · exact (hothers j hi).trans (if_pos rfl)
      · exact hdone j hj
    · rw [List.mem_cons, not_or] at hj
      exact (hothers j hj.2).trans (if_neg hj.1)

/-- The threads of a list post, the main loop wakes for nothing, and then some of them, `is`, send:
the others, `rest`, are still on their way. -/
theorem exists_asleep (cmd : MethodCall Value) (rest : List ι) {is : List ι}
    (hnodup : (rest ++ is).Nodup) (hroom : is.length ≤ channelBound) :
    ∃ ls, ∃ t : Host ι Value, Run Host.Step (Host.init ι Value) ls t ∧ t.main = .getMessage ∧
      t.messages = [] ∧ t.channel.length = is.length ∧ ∀ i, t.sending i ≠ none ↔ i ∈ rest := by
  obtain ⟨-, hnodup', hdisjoint⟩ := List.nodup_append.mp hnodup
  obtain ⟨ls₁, s₁, hposts, hchannel, hmain, hmessages, hsending, hidle⟩ :=
    exists_posts (s := Host.init ι Value) cmd hnodup fun _ _ => rfl
  obtain ⟨ls₂, s₂, hdrains, hmain₂, hchannel₂, hmessages₂, hsending₂⟩ :=
    exists_drains hmain hchannel hmessages
  have hposted : ∀ i ∈ is, s₂.sending i ≠ none := by
    intro i hi
    rw [hsending₂, hsending i (List.mem_append_right _ hi)]
    nofun
  obtain ⟨ls₃, s₃, henqueues, hmain₃, hmessages₃, hlength₃, hdone, hothers⟩ :=
    exists_enqueues (s := s₂) hnodup' hposted (by simpa [hchannel₂] using hroom)
  refine ⟨_, s₃, (hposts.trans hdrains).trans henqueues, hmain₃.trans hmain₂,
    hmessages₃.trans hmessages₂, by simp [hlength₃, hchannel₂], fun i => ?_⟩
  by_cases hi : i ∈ is
  · rw [hdone i hi]
    exact iff_of_false (fun hne => hne rfl) fun hrest => hdisjoint i hrest i hi rfl
  · rw [hothers i hi, hsending₂]
    by_cases hrest : i ∈ rest
    · rw [hsending i (List.mem_append_left _ hrest)]
      exact iff_of_true nofun hrest
    · rw [hidle i fun hmem => (List.mem_append.mp hmem).elim hrest hi]
      exact iff_of_false (fun hne => hne rfl) hrest

omit [DecidableEq ι] in
theorem exists_threads [Fintype ι] {n : Nat} (hn : n ≤ Fintype.card ι) :
    ∃ is : List ι, is.length = n ∧ is.Nodup := by
  obtain ⟨threads, -, hcard⟩ := Finset.exists_subset_card_eq
    (show n ≤ (Finset.univ : Finset ι).card from hn)
  exact ⟨threads.toList, by rw [Finset.length_toList, hcard], threads.nodup_toList⟩

/-- Asleep, with no message, the main loop does nothing of itself. -/
theorem not_makesRoom (hmain : s.main = .getMessage) (hmessages : s.messages = [])
    (hfull : s.channel.length = channelBound) : ¬ s.MakesRoom := by
  rintro ⟨ls, s', hls, hrun, hroom⟩
  have hnothing : ls = [] := by
    cases ls with
    | nil => rfl
    | cons a ls =>
      obtain ⟨t, hstep, -⟩ := hrun.of_cons
      have ha := hls a (List.mem_cons_self ..)
      cases hstep with
      | retrieve _ hmsg =>
        rw [hmessages] at hmsg
        cases hmsg
      | receive hloop =>
        rw [hmain] at hloop
        cases hloop
      | drained hloop =>
        rw [hmain] at hloop
        cases hloop
      | _ => cases ha
  subst hnothing
  obtain rfl := hrun.of_nil
  rcases hroom with hroom | hexited
  · exact absurd hfull hroom.ne
  · rw [hmain] at hexited
    cases hexited

/-- **Nobody waits for others** at the full channel, in any interleaving, exactly if there are
at most as many threads as the channel has room for. -/
theorem makesRoom_iff [Fintype ι] [Inhabited Value] :
    (∀ ls, ∀ s : Host ι Value, Run Host.Step (Host.init ι Value) ls s → s.InSend → s.MakesRoom) ↔
      Fintype.card ι ≤ channelBound := by
  constructor
  · intro hroom
    by_contra hthreads
    obtain ⟨threads, hlength, hnodup⟩ := exists_threads (ι := ι) (not_le.mp hthreads)
    obtain ⟨last, is, rfl⟩ := List.exists_cons_of_length_eq_add_one hlength
    have hfull : is.length = channelBound := Nat.succ.inj hlength
    obtain ⟨ls, t, hrun, hmain, hmessages, hchannel, hsending⟩ :=
      exists_asleep (⟨Stop.METHOD, default, none, none, none⟩ : MethodCall Value)
        [last] hnodup hfull.le
    have hin : t.InSend := ⟨last, (hsending last).mpr (List.mem_singleton_self last)⟩
    exact not_makesRoom hmain hmessages (hchannel.trans hfull) (hroom ls t hrun hin)
  · intro hthreads ls s hrun hin
    exact (counted_run hrun).makesRoom hthreads hin

/-- **What lost wake-ups leave behind**: at most one command for each thread, and as many as the
channel has room for; and any such number. -/
theorem leftBehind_iff [Fintype ι] [Inhabited Value] (n : Nat) :
    (∃ ls, ∃ s : Host ι Value, Run Host.Step (Host.init ι Value) ls s ∧ s.Quiescent ∧
        s.channel.length = n) ↔
      n ≤ Fintype.card ι ∧ n ≤ channelBound := by
  constructor
  · rintro ⟨ls, s, hrun, ⟨-, hqueued, hmain⟩, rfl⟩
    have hcounted := counted_run hrun
    exact ⟨(Nat.le_add_right _ _).trans (hcounted.asleep hmain hqueued), hcounted.bound⟩
  · rintro ⟨hthreads, hroom⟩
    obtain ⟨is, rfl, hnodup⟩ := exists_threads hthreads
    obtain ⟨ls, t, hrun, hmain, hmessages, hchannel, hsending⟩ :=
      exists_asleep (⟨Stop.METHOD, default, none, none, none⟩ : MethodCall Value)
        [] hnodup hroom
    refine ⟨ls, t, hrun, ⟨?_, ?_, hmain⟩, hchannel⟩
    · rintro ⟨i, hi⟩
      cases (hsending i).mp hi
    · rintro ⟨m, hm, -⟩
      rw [hmessages] at hm
      cases hm

end Host

end ChewingTsf
