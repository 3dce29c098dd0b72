import Enrollment.Proofs.Attempt
import Enrollment.Proofs.Registration
namespace Enrollment.Client

/-!
# What an attempt returns

The reply to the register call and the turns after it dictate a result: the first
of them that is decisive does.  An attempt returns what is dictated, and goes on
as long as nothing is.
-/

open Program Session

variable {c c' : Client} {p : Polling} {events : List Event} {budget : Duration}
  {found : Except Error Outcome} {turns : List Turn}

inductive Dictates (budget : Duration) :
    Except Error Outcome → List Turn → Except Error Outcome → Prop
  | atOnce {reply found : Except Error Outcome} (h : Settles reply found) :
      Dictates budget reply [] found
  | inTurn {outcome : Outcome} {id : String} {before : List Turn} {last : Turn}
      {found : Except Error Outcome} (hpending : Pending outcome id)
      (hbefore : ∀ turn ∈ before, Undecided turn) (hlast : Decides budget last found) :
      Dictates budget (.ok outcome) (before ++ [last]) found

/-- An attempt is begun with these questions, its registration comes to this
reply, and then these turns are taken. -/
inductive Seen (c : Client) : List Event → Except Error Outcome → List Turn → Prop
  | registered {started : Duration} {events : List Event} {reply : Except Error Outcome}
      {authorization : Authorization}
      (hregister : (register c.config c.mechanism).Yields .empty events reply authorization) :
      Seen c (⟨.clock, started⟩ :: events) reply []
  | polled {started : Duration} {events polls : List Event} {outcome : Outcome} {id : String}
      {authorization : Authorization} {turns : List Turn}
      (hregister : (register c.config c.mechanism).Yields .empty events (.ok outcome)
        authorization)
      (hoperation : outcome.operationId = some id)
      (hturns : Turns c.config ⟨started, id, authorization⟩ polls turns) :
      Seen c (⟨.clock, started⟩ :: (events ++ polls)) (.ok outcome) turns

/-! ### Nothing but the client enters a state -/

theorem Turns.not_mem {config : Config} (h : Turns config p events turns) {topic : Topic}
    (htopic : topic ∉ turnTopics) : topic ∉ topics events :=
  fun hmem ↦ htopic (h.topics_subset hmem)

theorem asked_turns {config : Config} (h : Turns config p events turns) : asked events = events :=
  asked_eq_self (h.not_mem (by decide))

theorem asked_announced (c : Client) (next : State) : asked (c.announced next) = [] := by
  unfold announced
  by_cases h : c.state = next
  · rw [if_pos h]
    rfl
  · rw [if_neg h]
    rfl

theorem asked_register {config : Config} {mechanism : Mechanism} {reply : Except Error Outcome}
    {authorization : Authorization}
    (h : (register config mechanism).Yields .empty events reply authorization) :
    asked events = events :=
  asked_eq_self ((register_course h).not_mem (by decide))

/-! ### The attempt and what is dictated -/

theorem undecided_or_decides (budget : Duration) (turn : Turn) :
    Undecided turn ∨ ∃ found, Decides budget turn found := by
  cases turn with
  | spent => exact Or.inr ⟨_, .spent⟩
  | polled result =>
    cases hverdict : verdict? result with
    | none => exact Or.inl (verdict?_eq_none_iff.mp hverdict)
    | some found => exact Or.inr ⟨found, verdict?_eq_some_iff.mp hverdict⟩

theorem Seen.of_nil {asks : List Event} {reply : Except Error Outcome} (h : Seen c asks reply []) :
    ∃ started registered authorization, asks = ⟨.clock, started⟩ :: registered ∧
      (register c.config c.mechanism).Yields .empty registered reply authorization := by
  cases h with
  | @registered started events _ authorization hregister =>
    exact ⟨started, events, authorization, rfl, hregister⟩
  | @polled started events _ _ _ authorization _ hregister hoperation hturns =>
    cases hturns
    exact ⟨started, events, authorization, by simp, hregister⟩

theorem Seen.of_pending {asks : List Event} {outcome : Outcome} {id : String}
    (h : Seen c asks (.ok outcome) turns) (hpending : Pending outcome id) :
    ∃ started registered authorization polls, asks = ⟨.clock, started⟩ :: (registered ++ polls) ∧
      (register c.config c.mechanism).Yields .empty registered (.ok outcome) authorization ∧
      Turns c.config ⟨started, id, authorization⟩ polls turns := by
  cases h with
  | @registered started events _ authorization hregister =>
    exact ⟨started, events, authorization, [], by simp, hregister, .nil⟩
  | polled hregister hoperation hturns =>
    obtain rfl := Option.some.inj (hoperation.symm.trans hpending.operation)
    exact ⟨_, _, _, _, rfl, hregister, hturns⟩

/-- The register reply among the questions of an attempt is what its registration
came to. -/
theorem Seen.registerReply_iff {reply : Except Error Outcome} {outcome : Outcome}
    (h : Seen c events reply turns) :
    RegisterReply c.config events outcome ↔ reply = .ok outcome := by
  cases h with
  | registered hregister =>
    rw [registerReply_clock_iff]
    exact (register_course hregister).eq_ok_iff.symm
  | polled hregister hoperation hturns =>
    have hpolls := fun h : RegisterReply c.config _ outcome ↦
      hturns.not_mem (by decide) h.topic_mem
    rw [registerReply_clock_iff, registerReply_append_iff, or_iff_left hpolls]
    exact (register_course hregister).eq_ok_iff.symm

/-- The questions of an attempt that is settled by its registration, but for what
is told of its states. -/
theorem asked_settled {started : Duration} {registered : List Event}
    (h : asked registered = registered) (next last : State) :
    asked (⟨.clock, started⟩ :: (c.announced next ++ registered ++ [⟨.enter last, ()⟩])) =
      ⟨.clock, started⟩ :: registered := by
  have hlast : asked [⟨.enter last, ()⟩] = [] := rfl
  have hclock (rest : List Event) :
      asked (⟨.clock, started⟩ :: rest) = ⟨.clock, started⟩ :: asked rest := rfl
  rw [hclock, asked_append, asked_append, asked_announced, h, hlast]
  simp

theorem asked_polled (c : Client) (started : Duration) {registered polls : List Event}
    (h : asked registered = registered) (hpolls : asked polls = polls) (next : State)
    (last : List Event) (hlast : asked last = []) :
    asked (⟨.clock, started⟩ :: (c.announced next ++ registered ++
        ⟨.enter .assigning, ()⟩ :: polls ++ last)) =
      ⟨.clock, started⟩ :: (registered ++ polls) := by
  have henter : asked (⟨.enter .assigning, ()⟩ :: polls) = asked polls := rfl
  have hclock (rest : List Event) :
      asked (⟨.clock, started⟩ :: rest) = ⟨.clock, started⟩ :: asked rest := rfl
  rw [hclock, asked_append, asked_append, asked_append, asked_announced, henter, h, hpolls, hlast]
  simp

theorem attempt_finished_iff (c : Client) (n : Nat) (asks : List Event) :
    (∃ events c', Runs (c.attempt n) events (.finished found, c') ∧ asked events = asks) ↔
      ∃ reply turns, Seen c asks reply turns ∧ Dictates c.config.attemptBudget reply turns found ∧
        turns.length ≤ n := by
  simp only [runs_attempt_iff]
  constructor
  · rintro ⟨events, c', hcourse, rfl⟩
    cases hcourse with
    | settled hregister hsettles =>
      refine ⟨_, [], ?_, .atOnce hsettles, Nat.zero_le n⟩
      rw [asked_settled (asked_register hregister)]
      exact .registered hregister
    | decided hregister hpending hturns hall =>
      obtain ⟨before, last, rfl, hn, hbefore, hlast⟩ := hall
      have hlength : (before ++ [last]).length ≤ n := by simpa [Nat.succ_le_iff] using hn
      refine ⟨_, before ++ [last], ?_, .inTurn hpending hbefore hlast, hlength⟩
      rw [asked_polled _ _ (asked_register hregister) (asked_turns hturns) _ _ rfl]
      exact .polled hregister hpending.operation hturns
  · rintro ⟨reply, turns, hseen, hdictates, hn⟩
    cases hdictates with
    | atOnce hsettles =>
      obtain ⟨started, registered, authorization, rfl, hregister⟩ := hseen.of_nil
      exact ⟨_, _, .settled hregister hsettles, asked_settled (asked_register hregister) _ _⟩
    | @inTurn outcome id before last found hpending hbefore hlast =>
      obtain ⟨started, registered, authorization, polls, rfl, hregister, hturns⟩ :=
        hseen.of_pending hpending
      have hlength : before.length < n := by simpa [Nat.succ_le_iff] using hn
      refine ⟨_, _, .decided hregister hpending hturns ⟨before, last, rfl, hlength, hbefore, hlast⟩,
        ?_⟩
      exact asked_polled _ _ (asked_register hregister) (asked_turns hturns) _ _ rfl

theorem attempt_polling_iff (c : Client) (n : Nat) (asks : List Event) :
    (∃ events p c', Runs (c.attempt n) events (.polling p, c') ∧ asked events = asks) ↔
      ∃ outcome id turns, Seen c asks (.ok outcome) turns ∧ Pending outcome id ∧
        turns.length = n ∧ ∀ turn ∈ turns, Undecided turn := by
  simp only [runs_attempt_iff]
  constructor
  · rintro ⟨events, p, c', hcourse, rfl⟩
    cases hcourse with
    | @undecided started registered polls outcome id authorization turns hregister hpending hturns
        hall =>
      obtain ⟨-, hn, hundecided⟩ := hall
      refine ⟨outcome, id, turns, ?_, hpending, hn, hundecided⟩
      have hasked := asked_polled c started (asked_register hregister)
        (asked_turns hturns) .registering [] rfl
      rw [List.append_nil] at hasked
      rw [hasked]
      exact .polled hregister hpending.operation hturns
  · rintro ⟨outcome, id, turns, hseen, hpending, hn, hundecided⟩
    obtain ⟨started, registered, authorization, polls, rfl, hregister, hturns⟩ :=
      hseen.of_pending hpending
    refine ⟨_, _, _, .undecided hregister hpending hturns ⟨rfl, hn, hundecided⟩, ?_⟩
    have hasked := asked_polled c started (asked_register hregister)
      (asked_turns hturns) .registering [] rfl
    rw [List.append_nil] at hasked
    exact hasked

/-! ### Turns without end -/

theorem Turns.snoc {config : Config} {before : List Event} {turn : Turn}
    (h : Turns config p events turns) (hlast : TurnCourse config p before turn) :
    Turns config p (events ++ before) (turns ++ [turn]) := by
  induction h with
  | nil =>
    have hone : Turns config p (before ++ []) [turn] := .cons hlast .nil
    simpa using hone
  | cons hturn hrest ih =>
    rw [List.append_assoc]
    exact .cons hturn ih

def firstTurns (seen : Nat → Turn) (n : Nat) : List Turn :=
  (List.range n).map seen

def firstPolls (polls : Nat → List Event) (n : Nat) : List Event :=
  (List.range n).flatMap polls

theorem turns_first {config : Config} {polls : Nat → List Event} {seen : Nat → Turn}
    (h : ∀ i, TurnCourse config p (polls i) (seen i)) (n : Nat) :
    Turns config p (firstPolls polls n) (firstTurns seen n) := by
  induction n with
  | zero => exact .nil
  | succ n ih =>
    have hsnoc := ih.snoc (h n)
    simpa [firstPolls, firstTurns, List.range_succ] using hsnoc

theorem undecided_first {seen : Nat → Turn} {n : Nat} (h : ∀ i, i < n → Undecided (seen i)) :
    ∀ turn ∈ firstTurns seen n, Undecided turn := by
  intro turn hmem
  obtain ⟨i, hi, rfl⟩ := List.mem_map.mp hmem
  exact h i (List.mem_range.mp hi)

theorem firstTurns_succ (seen : Nat → Turn) (n : Nat) :
    firstTurns seen (n + 1) = firstTurns seen n ++ [seen n] := by
  simp [firstTurns, List.range_succ]

/-- In every sequence of turns there is a first one that decides, unless none does. -/
theorem exists_first_or_undecided (budget : Duration) (seen : Nat → Turn) :
    (∃ k found, (∀ i, i < k → Undecided (seen i)) ∧ Decides budget (seen k) found) ∨
      ∀ i, Undecided (seen i) := by
  by_cases hfirst : ∃ k found, (∀ i, i < k → Undecided (seen i)) ∧ Decides budget (seen k) found
  · exact Or.inl hfirst
  · right
    intro i
    -- if all turns before it are undecided, a deciding turn would be the first one
    induction i using Nat.strongRecOn with
    | ind i ih =>
      rcases undecided_or_decides budget (seen i) with hundecided | ⟨found, hdecides⟩
      · exact hundecided
      · exact absurd ⟨i, found, ih, hdecides⟩ hfirst

/-! ### The result of an attempt -/

structure ResultDictated (c : Client) : Prop where
  /-- It returns what is dictated within its turns, and nothing else. -/
  returns : ∀ n asks found,
    (∃ events c', Runs (c.attempt n) events (.finished found, c') ∧ asked events = asks) ↔
      ∃ reply turns, Seen c asks reply turns ∧ Dictates c.config.attemptBudget reply turns found ∧
        turns.length ≤ n
  /-- It goes on polling just as long as nothing is dictated. -/
  waits : ∀ n asks,
    (∃ events p c', Runs (c.attempt n) events (.polling p, c') ∧ asked events = asks) ↔
      ∃ outcome id turns, Seen c asks (.ok outcome) turns ∧ Pending outcome id ∧
        turns.length = n ∧ ∀ turn ∈ turns, Undecided turn
  unique : ∀ n m events events' found found' c' c'',
    Runs (c.attempt n) events (.finished found, c') →
      Runs (c.attempt m) events' (.finished found', c'') → asked events = asked events' →
      found = found'
  /-- Of turns without end the first decisive one decides; without one the attempt
  never returns. -/
  endless : ∀ started registered outcome id authorization (polls : Nat → List Event)
    (seen : Nat → Turn),
    (register c.config c.mechanism).Yields .empty registered (.ok outcome) authorization →
      Pending outcome id →
      (∀ i, TurnCourse c.config ⟨started, id, authorization⟩ (polls i) (seen i)) →
      (∃ k found, (∀ i, i < k → Undecided (seen i)) ∧
          Decides c.config.attemptBudget (seen k) found ∧
          ∀ n, k < n → ∃ events c', Runs (c.attempt n) events (.finished found, c') ∧
            asked events = ⟨.clock, started⟩ :: (registered ++ firstPolls polls (k + 1))) ∨
        (∀ i, Undecided (seen i)) ∧
          ∀ n, ∃ events p c', Runs (c.attempt n) events (.polling p, c') ∧
            asked events = ⟨.clock, started⟩ :: (registered ++ firstPolls polls n)

theorem attempt_returns_more_turns {n m : Nat} (hle : n ≤ m) {asks : List Event}
    (h : ∃ events c', Runs (c.attempt n) events (.finished found, c') ∧ asked events = asks) :
    ∃ events c', Runs (c.attempt m) events (.finished found, c') ∧ asked events = asks := by
  obtain ⟨reply, turns, hseen, hdictates, hn⟩ := (attempt_finished_iff c n asks).mp h
  exact (attempt_finished_iff c m asks).mpr ⟨reply, turns, hseen, hdictates, Nat.le_trans hn hle⟩

theorem attempt_returns_unique {n m : Nat} {events' : List Event} {found' : Except Error Outcome}
    {c'' : Client} (h : Runs (c.attempt n) events (.finished found, c'))
    (h' : Runs (c.attempt m) events' (.finished found', c''))
    (hasked : asked events = asked events') : found = found' := by
  have hmax := attempt_returns_more_turns (Nat.le_max_left n m) ⟨events, c', h, hasked⟩
  have hmax' := attempt_returns_more_turns (Nat.le_max_right n m) ⟨events', c'', h', rfl⟩
  obtain ⟨longer, d, hrun, hlonger⟩ := hmax
  obtain ⟨longer', d', hrun', hlonger'⟩ := hmax'
  have hpair := runs_unique hrun' hrun (hlonger'.trans hlonger.symm)
  exact Progress.finished.inj (Prod.mk.inj hpair).1

theorem attempt_result_dictated (c : Client) : ResultDictated c where
  returns := fun n asks _ ↦ attempt_finished_iff c n asks
  waits := fun n asks ↦ attempt_polling_iff c n asks
  unique := fun _ _ _ _ _ _ _ _ h h' hasked ↦ attempt_returns_unique h h' hasked
  endless := by
    intro started registered outcome id authorization polls seen hregister hpending hturns
    rcases exists_first_or_undecided c.config.attemptBudget seen with
      ⟨k, found, hbefore, hdecides⟩ | hundecided
    · refine Or.inl ⟨k, found, hbefore, hdecides, fun n hn ↦ ?_⟩
      apply (attempt_finished_iff c n _).mpr
      refine ⟨.ok outcome, firstTurns seen (k + 1),
        .polled hregister hpending.operation (turns_first hturns (k + 1)), ?_, ?_⟩
      · rw [firstTurns_succ]
        exact .inTurn hpending (undecided_first hbefore) hdecides
      · simpa [firstTurns, Nat.succ_le_iff] using hn
    · refine Or.inr ⟨hundecided, fun n ↦ ?_⟩
      apply (attempt_polling_iff c n _).mpr
      exact ⟨outcome, id, firstTurns seen n,
        .polled hregister hpending.operation (turns_first hturns n), hpending,
        by simp [firstTurns], undecided_first fun i _ ↦ hundecided i⟩

end Enrollment.Client
