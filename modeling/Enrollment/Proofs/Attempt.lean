import Enrollment.Proofs.Poll
namespace Enrollment.Client

/-!
# Attempts, turn by turn

An attempt looks at the clock, enters its first state, registers, and is then
settled or takes turns until one of them decides.  `AttemptCourse` lists these
cases with everything that is asked on the way.
-/

open Program Session

variable {c c' : Client} {p : Polling} {events : List Event} {progress : Progress}

/-! ### Any number of turns -/

inductive Turns (config : Config) (p : Polling) : List Event → List Turn → Prop
  | nil : Turns config p [] []
  | cons {before after : List Event} {turn : Turn} {turns : List Turn}
      (h : TurnCourse config p before turn) (hrest : Turns config p after turns) :
      Turns config p (before ++ after) (turn :: turns)

def turnTopics : List Topic := [.clock, .sleep, .registrationId, .call .getStatus]

theorem StatusCourse.topics_subset {timeout : Duration} {result : Except Error Outcome}
    (h : StatusCourse p timeout events result) : topics events ⊆ turnTopics := by
  cases h <;> simp [topics, turnTopics, Query.topic, DeviceQuery.topic, statusCall, Call.operation]

theorem TurnCourse.topics_subset {config : Config} {turn : Turn}
    (h : TurnCourse config p events turn) : topics events ⊆ turnTopics := by
  cases h with
  | spent h => simp [topics, turnTopics, Query.topic]
  | polled h hask =>
    have hrest := hask.topics_subset
    simp only [topics_cons, List.cons_subset]
    exact ⟨by simp [turnTopics, Query.topic], by simp [turnTopics, Query.topic],
      by simp [turnTopics, Query.topic], hrest⟩

theorem Turns.topics_subset {config : Config} {turns : List Turn}
    (h : Turns config p events turns) : topics events ⊆ turnTopics := by
  induction h with
  | nil => exact List.nil_subset _
  | cons hturn hrest ih =>
    rw [topics_append]
    exact List.append_subset.mpr ⟨hturn.topics_subset, ih⟩

/-- What `n` turns may leave: the end of the attempt, by the last turn taken, or
nothing after all of them. -/
def AfterAll (budget : Duration) (p : Polling) (n : Nat) (turns : List Turn) : Progress → Prop
  | .finished found => ∃ before last, turns = before ++ [last] ∧ before.length < n ∧
      (∀ turn ∈ before, Undecided turn) ∧ Decides budget last found
  | .polling q => q = p ∧ turns.length = n ∧ ∀ turn ∈ turns, Undecided turn

theorem polls_finished (c : Client) (n : Nat) (found : Except Error Outcome) :
    c.polls n (.finished found) = pure (.finished found) := by
  cases n <;> rfl

theorem afterAll_zero_iff {budget : Duration} {turns : List Turn} :
    AfterAll budget p 0 turns progress ↔ turns = [] ∧ progress = .polling p := by
  cases progress with
  | finished found => simp [AfterAll]
  | polling q =>
    simp only [AfterAll, List.length_eq_zero_iff, Progress.polling.injEq]
    constructor
    · rintro ⟨rfl, rfl, -⟩
      exact ⟨rfl, rfl⟩
    · rintro ⟨rfl, rfl⟩
      exact ⟨rfl, rfl, by simp⟩

theorem not_afterAll_succ_nil {budget : Duration} {n : Nat} :
    ¬ AfterAll budget p (n + 1) [] progress := by
  cases progress with
  | finished found => simp [AfterAll]
  | polling q => simp [AfterAll]

/-- The first turn decides, and is the only one, or leaves it to the others. -/
theorem afterAll_succ_cons_iff {budget : Duration} {n : Nat} {turn : Turn} {turns : List Turn} :
    AfterAll budget p (n + 1) (turn :: turns) progress ↔
      (turns = [] ∧ ∃ found, progress = .finished found ∧ Decides budget turn found) ∨
        Undecided turn ∧ AfterAll budget p n turns progress := by
  cases progress with
  | finished found =>
    constructor
    · rintro ⟨before, last, hturns, hn, hbefore, hlast⟩
      cases before with
      | nil =>
        obtain ⟨rfl, rfl⟩ := List.cons.inj hturns
        exact Or.inl ⟨rfl, found, rfl, hlast⟩
      | cons first before =>
        obtain ⟨rfl, rfl⟩ := List.cons.inj hturns
        obtain ⟨hfirst, hrest⟩ := List.forall_mem_cons.mp hbefore
        exact Or.inr ⟨hfirst, before, last, rfl, by simpa using hn, hrest, hlast⟩
    · rintro (⟨rfl, other, hother, hdecides⟩ | ⟨hfirst, before, last, rfl, hn, hbefore, hlast⟩)
      · obtain rfl := Progress.finished.inj hother
        exact ⟨[], turn, rfl, by simp, by simp, hdecides⟩
      · exact ⟨turn :: before, last, rfl, by simpa using hn,
          List.forall_mem_cons.mpr ⟨hfirst, hbefore⟩, hlast⟩
  | polling q =>
    simp only [AfterAll, List.length_cons, Nat.add_right_cancel_iff, List.forall_mem_cons]
    constructor
    · rintro ⟨rfl, hn, hfirst, hrest⟩
      exact Or.inr ⟨hfirst, rfl, hn, hrest⟩
    · rintro (⟨-, found, hfound, -⟩ | ⟨hfirst, rfl, hn, hrest⟩)
      · exact nomatch hfound
      · exact ⟨rfl, hn, hfirst, hrest⟩

theorem runs_polls_iff (h : p.operationId ≠ "") (n : Nat) :
    Runs (c.polls n (.polling p)) events progress ↔
      ∃ turns, Turns c.config p events turns ∧
        AfterAll c.config.attemptBudget p n turns progress := by
  -- an undecided poll leaves `p` itself, so the other turns start from the same `p`
  induction n generalizing events with
  | zero =>
    rw [polls, runs_pure_iff]
    simp only [afterAll_zero_iff]
    constructor
    · rintro ⟨rfl, rfl⟩
      exact ⟨[], .nil, rfl, rfl⟩
    · rintro ⟨turns, hturns, rfl, rfl⟩
      cases hturns
      exact ⟨rfl, rfl⟩
  | succ n ih =>
    have hstep : c.polls (n + 1) (.polling p) = (c.poll p).bind (c.polls n) := rfl
    rw [hstep, runs_bind_iff]
    constructor
    · rintro ⟨before, after, next, rfl, hpoll, hrest⟩
      obtain ⟨turn, hturn, hnext⟩ := (runs_poll_iff h).mp hpoll
      cases next with
      | finished found =>
        rw [polls_finished] at hrest
        obtain ⟨rfl, rfl⟩ := runs_pure_iff.mp hrest
        exact ⟨[turn], .cons hturn .nil,
          afterAll_succ_cons_iff.mpr (Or.inl ⟨rfl, found, rfl, hnext⟩)⟩
      | polling q =>
        obtain ⟨hundecided, rfl⟩ := hnext
        obtain ⟨turns, hturns, hall⟩ := ih.mp hrest
        exact ⟨turn :: turns, .cons hturn hturns,
          afterAll_succ_cons_iff.mpr (Or.inr ⟨hundecided, hall⟩)⟩
    · rintro ⟨turns, hturns, hall⟩
      cases hturns with
      | nil => exact absurd hall not_afterAll_succ_nil
      | @cons before after turn turns hturn hrest =>
        rcases afterAll_succ_cons_iff.mp hall with ⟨rfl, found, rfl, hdecides⟩ | ⟨hundecided, hall⟩
        · cases hrest
          refine ⟨before, [], .finished found, rfl,
            (runs_poll_iff h).mpr ⟨turn, hturn, hdecides⟩, ?_⟩
          rw [polls_finished]
          exact .done _
        · exact ⟨before, after, .polling p, rfl,
            (runs_poll_iff h).mpr ⟨turn, hturn, hundecided, rfl⟩, ih.mpr ⟨turns, hrest, hall⟩⟩

/-! ### Entering states -/

/-- What is told of a state that a client is to be in. -/
def announced (c : Client) (next : State) : List Event :=
  if c.state = next then [] else [⟨.enter next, ()⟩]

theorem runs_transition_iff {next : State} :
    Runs (c.transition next) events c' ↔
      events = c.announced next ∧ c' = { c with state := next } := by
  unfold transition announced
  by_cases h : c.state = next
  · have hsame : { c with state := next } = c := by rw [← h]
    rw [if_pos h, if_pos h, hsame]
    exact runs_pure_iff
  · rw [if_neg h, if_neg h, runs_query_bind_iff]
    constructor
    · rintro ⟨_, rest, rfl, hrest⟩
      obtain ⟨rfl, rfl⟩ := runs_pure_iff.mp hrest
      exact ⟨rfl, rfl⟩
    · rintro ⟨rfl, rfl⟩
      exact ⟨(), [], rfl, .done _⟩

/-! ### The reply to the register call -/

/-- An outcome that leaves an operation to ask for. -/
structure Pending (outcome : Outcome) (operationId : String) : Prop where
  undecided : outcome.status.isTerminal = false
  operation : outcome.operationId = some operationId
  named : operationId ≠ ""

/-- What a registration comes to that settles the attempt without a poll. -/
inductive Settles : Except Error Outcome → Except Error Outcome → Prop
  | failed (error : Error) : Settles (.error error) (.error error)
  | terminal {outcome : Outcome} (h : outcome.status.isTerminal = true) :
      Settles (.ok outcome) (.ok outcome)
  | stray {outcome : Outcome} (h : outcome.status.isTerminal = false)
      (hid : outcome.operationId = none ∨ outcome.operationId = some "") :
      Settles (.ok outcome) (.error (.client (.noOperationId outcome.status)))

theorem operation_eq_some_iff {outcome : Outcome} {id : String} :
    (outcome.operationId.filter fun id ↦ !id.isEmpty) = some id ↔
      outcome.operationId = some id ∧ id ≠ "" := by
  rw [Option.filter_eq_some_iff]
  simp

theorem operation_eq_none_iff {outcome : Outcome} :
    (outcome.operationId.filter fun id ↦ !id.isEmpty) = none ↔
      outcome.operationId = none ∨ outcome.operationId = some "" := by
  cases outcome.operationId <;> simp [Option.filter]

def judge (c : Client) (started : Duration) (reply : Except Error Outcome)
    (authorization : Authorization) : Program (Progress × Client) := do
  match reply with
  | .error error => return (.finished (.error error), c)
  | .ok outcome =>
    if outcome.status.isTerminal then return (.finished (.ok outcome), c)
    else
      match outcome.operationId.filter fun id ↦ !id.isEmpty with
      | none => return (.finished (.error (.client (.noOperationId outcome.status))), c)
      | some operationId =>
        let c ← c.transition .assigning
        return (.polling ⟨started, operationId, authorization⟩, c)

theorem begin_eq (c : Client) : c.begin = Program.query .clock >>= fun started ↦
    (c.transition .registering).bind fun c ↦
      ((register c.config c.mechanism).run.run .empty).bind fun (reply, authorization) ↦
        c.judge started reply authorization := rfl

theorem settles_ok_pending {outcome : Outcome} {id : String} {found : Except Error Outcome}
    (hpending : Pending outcome id) : ¬ Settles (.ok outcome) found := by
  intro hsettles
  cases hsettles with
  | terminal h => simp [hpending.undecided] at h
  | stray h hid =>
    rcases hid with hnone | hempty
    · simp [hpending.operation] at hnone
    · exact hpending.named (by simpa [hpending.operation] using hempty)

theorem settles_or_pending (reply : Except Error Outcome) :
    (∃ found, Settles reply found) ∨ ∃ outcome id, reply = .ok outcome ∧ Pending outcome id := by
  cases reply with
  | error error => exact Or.inl ⟨_, .failed error⟩
  | ok outcome =>
    by_cases hterminal : outcome.status.isTerminal = true
    · exact Or.inl ⟨_, .terminal hterminal⟩
    · have hundecided : outcome.status.isTerminal = false := by simpa using hterminal
      cases hid : outcome.operationId.filter fun id ↦ !id.isEmpty with
      | none => exact Or.inl ⟨_, .stray hundecided (operation_eq_none_iff.mp hid)⟩
      | some id =>
        obtain ⟨hoperation, hnamed⟩ := operation_eq_some_iff.mp hid
        exact Or.inr ⟨outcome, id, rfl, hundecided, hoperation, hnamed⟩

theorem judge_of_settles {reply found : Except Error Outcome} (h : Settles reply found)
    (started : Duration) (authorization : Authorization) :
    c.judge started reply authorization = .done (.finished found, c) := by
  unfold judge
  cases h with
  | failed error => rfl
  | terminal h =>
    simp only [h, if_true]
    rfl
  | stray h hid =>
    simp only [h, Bool.false_eq_true, if_false, operation_eq_none_iff.mpr hid]
    rfl

theorem judge_of_pending {outcome : Outcome} {id : String} (h : Pending outcome id)
    (started : Duration) (authorization : Authorization) :
    c.judge started (.ok outcome) authorization =
      (c.transition .assigning).bind fun c ↦ .done (.polling ⟨started, id, authorization⟩, c) := by
  have hid := operation_eq_some_iff.mpr ⟨h.operation, h.named⟩
  unfold judge
  simp only [h.undecided, Bool.false_eq_true, if_false, hid]
  rfl

theorem runs_judge_iff {started : Duration} {reply : Except Error Outcome}
    {authorization : Authorization} :
    Runs (c.judge started reply authorization) events (progress, c') ↔
      (∃ found, Settles reply found ∧ events = [] ∧ progress = .finished found ∧ c' = c) ∨
        ∃ outcome id, reply = .ok outcome ∧ Pending outcome id ∧
          events = c.announced .assigning ∧ progress = .polling ⟨started, id, authorization⟩ ∧
          c' = { c with state := .assigning } := by
  constructor
  · intro hrun
    rcases settles_or_pending reply with ⟨found, hsettles⟩ | ⟨outcome, id, rfl, hpending⟩
    · rw [judge_of_settles hsettles] at hrun
      obtain ⟨rfl, hpair⟩ := runs_done_iff.mp hrun
      obtain ⟨rfl, rfl⟩ := Prod.mk.inj hpair
      exact Or.inl ⟨found, hsettles, rfl, rfl, rfl⟩
    · rw [judge_of_pending hpending] at hrun
      obtain ⟨before, after, next, rfl, htransition, hdone⟩ := runs_bind_iff.mp hrun
      obtain ⟨rfl, rfl⟩ := runs_transition_iff.mp htransition
      obtain ⟨rfl, hpair⟩ := runs_done_iff.mp hdone
      obtain ⟨rfl, rfl⟩ := Prod.mk.inj hpair
      exact Or.inr ⟨outcome, id, rfl, hpending, by simp, rfl, rfl⟩
  · rintro (⟨found, hsettles, rfl, rfl, rfl⟩ | ⟨outcome, id, rfl, hpending, rfl, rfl, rfl⟩)
    · rw [judge_of_settles hsettles]
      exact .done _
    · rw [judge_of_pending hpending]
      apply runs_bind_iff.mpr
      exact ⟨_, [], _, by simp, runs_transition_iff.mpr ⟨rfl, rfl⟩, .done _⟩

/-! ### Whole attempts -/

theorem runs_begin_iff : Runs c.begin events (progress, c') ↔
    ∃ started registered reply authorization,
      (register c.config c.mechanism).Yields .empty registered reply authorization ∧
      ((∃ found, Settles reply found ∧ progress = .finished found ∧
          events = ⟨.clock, started⟩ :: (c.announced .registering ++ registered) ∧
          c' = { c with state := .registering }) ∨
        ∃ outcome id, reply = .ok outcome ∧ Pending outcome id ∧
          progress = .polling ⟨started, id, authorization⟩ ∧
          events = ⟨.clock, started⟩ ::
            (c.announced .registering ++ registered ++ [⟨.enter .assigning, ()⟩]) ∧
          c' = { c with state := .assigning }) := by
  rw [begin_eq, runs_query_bind_iff]
  simp only [runs_bind_iff, runs_transition_iff]
  constructor
  · rintro ⟨started, _, rfl, _, _, _, rfl, ⟨rfl, rfl⟩, registered, rest, ⟨reply, authorization⟩,
      rfl, hregister, hjudge⟩
    refine ⟨started, registered, reply, authorization, hregister, ?_⟩
    rcases runs_judge_iff.mp hjudge with
      ⟨found, hsettles, rfl, rfl, rfl⟩ | ⟨outcome, id, rfl, hpending, rfl, rfl, rfl⟩
    · exact Or.inl ⟨found, hsettles, rfl, by simp, rfl⟩
    · exact Or.inr ⟨outcome, id, rfl, hpending, rfl, by simp [announced], rfl⟩
  · rintro ⟨started, registered, reply, authorization, hregister, hrest⟩
    rcases hrest with ⟨found, hsettles, rfl, rfl, rfl⟩ | ⟨outcome, id, rfl, hpending, rfl, rfl, rfl⟩
    · refine ⟨started, _, rfl, _, _, _, rfl, ⟨rfl, rfl⟩, registered, [], (reply, authorization),
        by simp, hregister, runs_judge_iff.mpr (Or.inl ⟨found, hsettles, rfl, rfl, rfl⟩)⟩
    · refine ⟨started, _, rfl, _, _, _, ?_, ⟨rfl, rfl⟩, registered, _, (.ok outcome, authorization),
        rfl, hregister,
        runs_judge_iff.mpr (Or.inr ⟨outcome, id, rfl, hpending, rfl, rfl, rfl⟩)⟩
      simp [announced]

theorem runs_begin_pending {registered : List Event} {outcome : Outcome} {id : String}
    {authorization : Authorization}
    (hregister : (register c.config c.mechanism).Yields .empty registered (.ok outcome)
      authorization)
    (hpending : Pending outcome id) (started : Duration) :
    Runs c.begin
      (⟨.clock, started⟩ :: (c.announced .registering ++ registered ++ [⟨.enter .assigning, ()⟩]))
      (.polling ⟨started, id, authorization⟩, { c with state := .assigning }) := by
  apply runs_begin_iff.mpr
  exact ⟨started, registered, .ok outcome, authorization, hregister,
    Or.inr ⟨outcome, id, rfl, hpending, rfl, rfl, rfl⟩⟩

inductive AttemptCourse (c : Client) (n : Nat) : List Event → Progress → Client → Prop
  | settled {started : Duration} {registered : List Event} {reply found : Except Error Outcome}
      {authorization : Authorization}
      (hregister : (register c.config c.mechanism).Yields .empty registered reply authorization)
      (hsettles : Settles reply found) :
      AttemptCourse c n
        (⟨.clock, started⟩ :: (c.announced .registering ++ registered ++
          [⟨.enter (finalState found), ()⟩]))
        (.finished found) { c with state := finalState found }
  | decided {started : Duration} {registered asked : List Event} {outcome : Outcome} {id : String}
      {authorization : Authorization} {turns : List Turn} {found : Except Error Outcome}
      (hregister : (register c.config c.mechanism).Yields .empty registered (.ok outcome)
        authorization)
      (hpending : Pending outcome id)
      (hturns : Turns c.config ⟨started, id, authorization⟩ asked turns)
      (hall : AfterAll c.config.attemptBudget ⟨started, id, authorization⟩ n turns
        (.finished found)) :
      AttemptCourse c n
        (⟨.clock, started⟩ :: (c.announced .registering ++ registered ++
          ⟨.enter .assigning, ()⟩ :: asked ++ [⟨.enter (finalState found), ()⟩]))
        (.finished found) { c with state := finalState found }
  | undecided {started : Duration} {registered asked : List Event} {outcome : Outcome}
      {id : String} {authorization : Authorization} {turns : List Turn}
      (hregister : (register c.config c.mechanism).Yields .empty registered (.ok outcome)
        authorization)
      (hpending : Pending outcome id)
      (hturns : Turns c.config ⟨started, id, authorization⟩ asked turns)
      (hall : AfterAll c.config.attemptBudget ⟨started, id, authorization⟩ n turns
        (.polling ⟨started, id, authorization⟩)) :
      AttemptCourse c n
        (⟨.clock, started⟩ :: (c.announced .registering ++ registered ++
          ⟨.enter .assigning, ()⟩ :: asked))
        (.polling ⟨started, id, authorization⟩) { c with state := .assigning }

/-- What ends an attempt is an error or has a terminal status. -/
def Final : Except Error Outcome → Prop
  | .ok outcome => outcome.status.isTerminal = true
  | .error _ => True

theorem Settles.final {reply found : Except Error Outcome} (h : Settles reply found) :
    Final found := by
  cases h with
  | failed error => exact trivial
  | terminal h => exact h
  | stray h hid => exact trivial

theorem Decides.final {budget : Duration} {turn : Turn} {found : Except Error Outcome}
    (h : Decides budget turn found) : Final found := by
  cases h with
  | spent => exact trivial
  | terminal h => exact h
  | rejected code message => rfl
  | failed => exact trivial

theorem AfterAll.final {budget : Duration} {n : Nat} {turns : List Turn}
    {found : Except Error Outcome} (h : AfterAll budget p n turns (.finished found)) :
    Final found := by
  obtain ⟨before, last, -, -, -, hdecides⟩ := h
  exact hdecides.final

/-- The states of an attempt under way are none of those it can end in. -/
theorem ne_finalState {found : Except Error Outcome} (h : Final found) {state : State}
    (hstate : state ∈ [.registering, .assigning]) : state ≠ finalState found := by
  cases found with
  | error error =>
    rintro rfl
    simp [finalState] at hstate
  | ok outcome =>
    rintro rfl
    unfold Final at h
    cases hstatus : outcome.status <;>
      simp_all [finalState, State.ofStatus, Status.isTerminal]

def finish (c : Client) : Progress → Program (Progress × Client)
  | .polling p => return (.polling p, c)
  | .finished found => return (.finished found, ← c.transition (finalState found))

theorem attempt_eq (c : Client) (n : Nat) : c.attempt n = c.begin.bind fun (progress, c) ↦
    (c.polls n progress).bind c.finish := by
  unfold attempt
  congr 1

theorem runs_finish_polling_iff :
    Runs (c.finish (.polling p)) events (progress, c') ↔
      events = [] ∧ progress = .polling p ∧ c' = c := by
  unfold finish
  rw [runs_pure_iff, Prod.mk.injEq]

theorem runs_finish_finished_iff {found : Except Error Outcome} :
    Runs (c.finish (.finished found)) events (progress, c') ↔
      events = c.announced (finalState found) ∧ progress = .finished found ∧
        c' = { c with state := finalState found } := by
  have hbind : c.finish (.finished found) =
      (c.transition (finalState found)).bind fun c' ↦ .done (.finished found, c') := rfl
  rw [hbind, runs_bind_iff]
  constructor
  · rintro ⟨before, after, next, rfl, htransition, hdone⟩
    obtain ⟨rfl, rfl⟩ := runs_transition_iff.mp htransition
    obtain ⟨rfl, hpair⟩ := runs_pure_iff.mp hdone
    obtain ⟨rfl, rfl⟩ := Prod.mk.inj hpair
    exact ⟨by simp, rfl, rfl⟩
  · rintro ⟨rfl, rfl, rfl⟩
    exact ⟨_, [], _, by simp, runs_transition_iff.mpr ⟨rfl, rfl⟩, .done _⟩

theorem announced_final {found : Except Error Outcome} (h : Final found) {state : State}
    (hstate : state ∈ [.registering, .assigning]) :
    { c with state }.announced (finalState found) = [⟨.enter (finalState found), ()⟩] :=
  if_neg (ne_finalState h hstate)

theorem runs_attempt_iff {n : Nat} :
    Runs (c.attempt n) events (progress, c') ↔ AttemptCourse c n events progress c' := by
  rw [attempt_eq, runs_bind_iff]
  constructor
  · rintro ⟨before, after, ⟨first, between⟩, rfl, hbegin, hrest⟩
    obtain ⟨asked, final, last, rfl, hpolls, hfinish⟩ := runs_bind_iff.mp hrest
    obtain ⟨started, registered, reply, authorization, hregister, hcases⟩ :=
      runs_begin_iff.mp hbegin
    rcases hcases with
      ⟨found, hsettles, rfl, rfl, rfl⟩ | ⟨outcome, id, rfl, hpending, rfl, rfl, rfl⟩
    · rw [polls_finished] at hpolls
      obtain ⟨rfl, rfl⟩ := runs_pure_iff.mp hpolls
      obtain ⟨rfl, rfl, rfl⟩ := runs_finish_finished_iff.mp hfinish
      rw [announced_final hsettles.final (by simp)]
      simpa using AttemptCourse.settled hregister hsettles
    · obtain ⟨turns, hturns, hall⟩ := (runs_polls_iff hpending.named n).mp hpolls
      cases last with
      | finished found =>
        obtain ⟨rfl, rfl, rfl⟩ := runs_finish_finished_iff.mp hfinish
        rw [announced_final hall.final (by simp)]
        simpa using AttemptCourse.decided hregister hpending hturns hall
      | polling q =>
        obtain ⟨rfl, rfl, rfl⟩ := runs_finish_polling_iff.mp hfinish
        obtain ⟨rfl, hn, hundecided⟩ := hall
        simpa using AttemptCourse.undecided hregister hpending hturns ⟨rfl, hn, hundecided⟩
  · intro hcourse
    cases hcourse with
    | @settled started registered reply found authorization hregister hsettles =>
      have hbegin : Runs c.begin (⟨.clock, started⟩ :: (c.announced .registering ++ registered))
          (.finished found, { c with state := .registering }) :=
        runs_begin_iff.mpr ⟨started, registered, reply, authorization, hregister,
          Or.inl ⟨found, hsettles, rfl, rfl, rfl⟩⟩
      have hfinish : Runs ({ c with state := .registering }.finish (.finished found))
          [⟨.enter (finalState found), ()⟩]
          (.finished found, { c with state := finalState found }) := by
        apply runs_finish_finished_iff.mpr
        exact ⟨(announced_final hsettles.final (by simp)).symm, rfl, rfl⟩
      refine ⟨_, [⟨.enter (finalState found), ()⟩], _, by simp, hbegin, ?_⟩
      apply runs_bind_iff.mpr
      refine ⟨[], _, .finished found, rfl, ?_, hfinish⟩
      rw [polls_finished]
      exact .done _
    | @decided started registered asked outcome id authorization turns found hregister hpending
        hturns hall =>
      have hbegin := runs_begin_pending (c := c) hregister hpending started
      have hpolls := (runs_polls_iff (c := { c with state := .assigning }) hpending.named n).mpr
        ⟨turns, hturns, hall⟩
      have hfinish : Runs ({ c with state := .assigning }.finish (.finished found))
          [⟨.enter (finalState found), ()⟩]
          (.finished found, { c with state := finalState found }) := by
        apply runs_finish_finished_iff.mpr
        exact ⟨(announced_final hall.final (by simp)).symm, rfl, rfl⟩
      refine ⟨_, asked ++ [⟨.enter (finalState found), ()⟩], _, by simp, hbegin, ?_⟩
      exact runs_bind_iff.mpr ⟨asked, _, .finished found, rfl, hpolls, hfinish⟩
    | @undecided started registered asked outcome id authorization turns hregister hpending
        hturns hall =>
      have hbegin := runs_begin_pending (c := c) hregister hpending started
      have hpolls := (runs_polls_iff (c := { c with state := .assigning }) hpending.named n).mpr
        ⟨turns, hturns, hall⟩
      refine ⟨_, asked, _, by simp, hbegin, ?_⟩
      apply runs_bind_iff.mpr
      exact ⟨asked, [], .polling ⟨started, id, authorization⟩, by simp, hpolls,
        runs_finish_polling_iff.mpr ⟨rfl, rfl, rfl⟩⟩

theorem attempt_config {n : Nat} (hrun : Runs (c.attempt n) events (progress, c')) :
    c'.config = c.config ∧ c'.mechanism = c.mechanism := by
  cases runs_attempt_iff.mp hrun <;> exact ⟨rfl, rfl⟩

/-- An attempt that has returned would have returned so with more turns. -/
theorem attempt_finished_of_le {n m : Nat} {found : Except Error Outcome} (hle : n ≤ m)
    (hrun : Runs (c.attempt n) events (.finished found, c')) :
    Runs (c.attempt m) events (.finished found, c') := by
  apply runs_attempt_iff.mpr
  cases runs_attempt_iff.mp hrun with
  | settled hregister hsettles => exact .settled hregister hsettles
  | decided hregister hpending hturns hall =>
    obtain ⟨before, last, hsplit, hbefore, hundecided, hdecides⟩ := hall
    exact .decided hregister hpending hturns
      ⟨before, last, hsplit, Nat.lt_of_lt_of_le hbefore hle, hundecided, hdecides⟩

end Enrollment.Client
