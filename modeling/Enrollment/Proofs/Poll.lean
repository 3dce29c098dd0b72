import Enrollment.Client
import Enrollment.Proofs.Session
namespace Enrollment.Client

/-!
# Polls

A turn of an attempt finds its budget spent, or sleeps and then asks for the
status.  What that question comes to either decides the attempt or leaves it as
it was.
-/

open Program Session

variable {c : Client} {p : Polling} {timeout budget : Duration} {events : List Event}
  {result found : Except Error Outcome}

/-! ### The question after the status -/

/-- The status call of a poll, with the id that was read for it. -/
def statusCall (p : Polling) (id : String) (credential : Credential) : Call :=
  .getStatus p.operationId id credential p.authorization.bearerToken

inductive StatusCourse (p : Polling) (timeout : Duration) :
    List Event → Except Error Outcome → Prop
  | nameless {answer : Except Error String} {error : Error}
      (h : checked String.isEmpty (.security .emptyRegistrationId) answer = .error error) :
      StatusCourse p timeout [⟨.device .registrationId, answer⟩] (.error error)
  | bare {id : String} (hid : id ≠ "") (h : p.authorization.credential = none) :
      StatusCourse p timeout [⟨.device .registrationId, .ok id⟩]
        (.error (.security .noAuthorizedCredential))
  | untimed {id : String} (hid : id ≠ "") {credential : Credential}
      (hcred : p.authorization.credential = some credential) {now : Duration}
      (h : deadline? now timeout = none) :
      StatusCourse p timeout [⟨.device .registrationId, .ok id⟩, ⟨.clock, now⟩]
        (.error (.client (.longTimeout .getStatus timeout)))
  | called {id : String} (hid : id ≠ "") {credential : Credential}
      (hcred : p.authorization.credential = some credential) {now deadline : Duration}
      (hd : deadline? now timeout = some deadline) {reply : Reply} :
      StatusCourse p timeout
        [⟨.device .registrationId, .ok id⟩, ⟨.clock, now⟩,
          ⟨.send (statusCall p id credential) deadline, reply⟩]
        (answered timeout (statusCall p id credential) Outcome.ofBytes reply)

def askStatus (p : Polling) (timeout : Duration) (id : String) : Session Outcome := do
  let authorization ← get
  match authorization.credential with
  | none => ofResult (.error (.security .noAuthorizedCredential))
  | some credential =>
    call timeout (.getStatus p.operationId id credential authorization.bearerToken) Outcome.ofBytes

theorem queryStatus_eq (h : p.operationId ≠ "") : queryStatus p.operationId timeout =
    required Session.registrationId String.isEmpty (.security .emptyRegistrationId) >>=
      askStatus p timeout := by
  have hempty : p.operationId.isEmpty = false := by simpa using h
  unfold queryStatus
  rw [hempty]
  rfl

theorem askStatus_of_none {id : String} (h : p.authorization.credential = none) :
    (askStatus p timeout id).run.run p.authorization =
      .done (.error (.security .noAuthorizedCredential), p.authorization) := by
  unfold askStatus
  rw [run_bind, run_get, done_bind]
  simp only [h]
  rfl

theorem askStatus_of_some {id : String} {credential : Credential}
    (h : p.authorization.credential = some credential) :
    (askStatus p timeout id).run.run p.authorization =
      (call timeout (statusCall p id credential) Outcome.ofBytes).run.run p.authorization := by
  unfold askStatus
  rw [run_bind, run_get, done_bind]
  simp only [h]
  rfl

/-- With an operation to ask for, these are all the ways in which a question after
the status can go; it leaves the authorization as it is. -/
theorem yields_queryStatus_iff (h : p.operationId ≠ "") {left : Authorization} :
    (queryStatus p.operationId timeout).Yields p.authorization events result left ↔
      left = p.authorization ∧ StatusCourse p timeout events result := by
  rw [queryStatus_eq h, yields_required_bind_iff]
  simp only [yields_registrationId_iff]
  constructor
  · rintro (⟨answer, e, ⟨rfl, rfl⟩, hcheck, rfl⟩ |
      ⟨id, a, before, after, rfl, ⟨rfl, rfl⟩, hid, hask⟩)
    · exact ⟨rfl, .nameless hcheck⟩
    have hname : id ≠ "" := by simpa using hid
    cases hcred : p.authorization.credential with
    | none =>
      rw [Yields, askStatus_of_none hcred] at hask
      obtain ⟨rfl, hpair⟩ := runs_done_iff.mp hask
      obtain ⟨rfl, rfl⟩ := Prod.mk.inj hpair
      exact ⟨rfl, .bare hname hcred⟩
    | some credential =>
      rw [Yields, askStatus_of_some hcred] at hask
      obtain ⟨rfl, now, ⟨hd, rfl, rfl⟩ | ⟨deadline, reply, hd, rfl, rfl⟩⟩ := yields_call_iff.mp hask
      · exact ⟨rfl, .untimed hname hcred hd⟩
      · exact ⟨rfl, .called hname hcred hd⟩
  · rintro ⟨rfl, hcourse⟩
    cases hcourse with
    | nameless hcheck => exact Or.inl ⟨_, _, ⟨rfl, rfl⟩, hcheck, rfl⟩
    | @bare id hid hcred =>
      refine Or.inr ⟨id, _, [_], [], rfl, ⟨rfl, rfl⟩, by simpa using hid, ?_⟩
      rw [Yields, askStatus_of_none hcred]
      exact .done _
    | @untimed id hid credential hcred now hd =>
      refine Or.inr ⟨id, _, [_], [_], rfl, ⟨rfl, rfl⟩, by simpa using hid, ?_⟩
      rw [Yields, askStatus_of_some hcred]
      exact yields_call_iff.mpr ⟨rfl, now, Or.inl ⟨hd, rfl, rfl⟩⟩
    | @called id hid credential hcred now deadline hd reply =>
      refine Or.inr ⟨id, _, [_], [_, _], rfl, ⟨rfl, rfl⟩, by simpa using hid, ?_⟩
      rw [Yields, askStatus_of_some hcred]
      exact yields_call_iff.mpr ⟨rfl, now, Or.inr ⟨deadline, reply, hd, rfl, rfl⟩⟩

/-! ### Turns -/

inductive Turn
  | spent
  | polled (result : Except Error Outcome)

def leftOver (config : Config) (p : Polling) (now : Duration) : Duration :=
  config.attemptBudget - (now - p.started)

/-- A turn is spent once the budget has passed since the attempt started.  Before
that it sleeps, asks, and waits at most as long as the budget lasts. -/
inductive TurnCourse (config : Config) (p : Polling) : List Event → Turn → Prop
  | spent {now : Duration} (h : config.attemptBudget ≤ now - p.started) :
      TurnCourse config p [⟨.clock, now⟩] .spent
  | polled {now later : Duration} (h : now - p.started < config.attemptBudget)
      {events : List Event} {result : Except Error Outcome}
      (hask : StatusCourse p (min config.operationTimeout (leftOver config p later)) events
        result) :
      TurnCourse config p
        (⟨.clock, now⟩ :: ⟨.sleep (min config.pollInterval (leftOver config p now)), ()⟩ ::
          ⟨.clock, later⟩ :: events)
        (.polled result)

/-- A turn after which the attempt goes on. -/
inductive Undecided : Turn → Prop
  | pending {outcome : Outcome} (h : outcome.status.isTerminal = false) :
      Undecided (.polled (.ok outcome))
  | transport (message : String) : Undecided (.polled (.error (.transport message)))
  | timeout (operation : Operation) (after : Duration) :
      Undecided (.polled (.error (.timeout operation after)))
  | noResponse (operation : Operation) : Undecided (.polled (.error (.noResponse operation)))

/-- A turn that ends the attempt, and with what. -/
inductive Decides (budget : Duration) : Turn → Except Error Outcome → Prop
  | spent : Decides budget .spent (.error (.attemptExpired budget))
  | terminal {outcome : Outcome} (h : outcome.status.isTerminal = true) :
      Decides budget (.polled (.ok outcome)) (.ok outcome)
  | rejected (code : Option String) (message : String) :
      Decides budget (.polled (.error (.hub code message)))
        (.ok ⟨.failed, none, none, none, none, none, code, some message, none, none, none⟩)
  | failed {error : Error} (hhub : ∀ code message, error ≠ .hub code message)
      (htransport : ∀ message, error ≠ .transport message)
      (htimeout : ∀ operation after, error ≠ .timeout operation after)
      (hresponse : ∀ operation, error ≠ .noResponse operation) :
      Decides budget (.polled (.error error)) (.error error)

/-- No turn both ends the attempt and lets it go on. -/
theorem Decides.not_undecided {turn : Turn} (h : Decides budget turn found) : ¬ Undecided turn := by
  intro hundecided
  cases h with
  | spent => exact nomatch hundecided
  | terminal hterminal =>
    cases hundecided with
    | pending hpending => simp [hterminal] at hpending
  | rejected code message => exact nomatch hundecided
  | failed hhub htransport htimeout hresponse =>
    cases hundecided with
    | transport message => exact htransport message rfl
    | timeout operation after => exact htimeout operation after rfl
    | noResponse operation => exact hresponse operation rfl

theorem verdict?_eq_none_iff : verdict? result = none ↔ Undecided (.polled result) := by
  constructor
  · intro h
    cases result with
    | ok outcome =>
      by_cases hterminal : outcome.status.isTerminal = true
      · simp [verdict?, hterminal] at h
      · exact .pending (by simpa using hterminal)
    | error error =>
      cases error with
      | transport message => exact .transport message
      | timeout operation after => exact .timeout operation after
      | noResponse operation => exact .noResponse operation
      | _ => exact nomatch h
  · intro h
    cases h with
    | pending h => simp [verdict?, h]
    | _ => rfl

theorem verdict?_eq_some_iff :
    verdict? result = some found ↔ Decides budget (.polled result) found := by
  constructor
  · intro h
    cases result with
    | ok outcome =>
      by_cases hterminal : outcome.status.isTerminal = true
      · obtain rfl : .ok outcome = found := by simpa [verdict?, hterminal] using h
        exact .terminal hterminal
      · simp [verdict?, hterminal] at h
    | error error =>
      cases error with
      | transport message => exact nomatch h
      | timeout operation after => exact nomatch h
      | noResponse operation => exact nomatch h
      | hub code message =>
        obtain rfl := Option.some.inj h
        exact .rejected code message
      | _ =>
        obtain rfl := Option.some.inj h
        exact .failed (by simp) (by simp) (by simp) (by simp)
  · intro h
    cases h with
    | terminal h => simp [verdict?, h]
    | rejected code message => rfl
    | @failed error hhub htransport htimeout hresponse =>
      cases error with
      | hub code message => exact absurd rfl (hhub code message)
      | transport message => exact absurd rfl (htransport message)
      | timeout operation after => exact absurd rfl (htimeout operation after)
      | noResponse operation => exact absurd rfl (hresponse operation)
      | _ => rfl

theorem remaining_eq (c : Client) (p : Polling) (now : Duration) :
    c.remaining p now = leftOver c.config p now := rfl

theorem isZero_remaining_iff {now : Duration} :
    (c.remaining p now).isZero = true ↔ c.config.attemptBudget ≤ now - p.started := by
  simp only [Duration.isZero, remaining, Duration.nanos_sub, Duration.le_def, beq_iff_eq]
  omega

/-- What a poll leaves of its turn: an end of the attempt, or nothing. -/
def After (budget : Duration) (p : Polling) (turn : Turn) : Progress → Prop
  | .finished found => Decides budget turn found
  | .polling q => Undecided turn ∧ q = p

def conclude (p : Polling) (result : Except Error Outcome) : Progress :=
  match verdict? result with
  | some found => .finished found
  | none => .polling p

theorem after_polled_iff {progress : Progress} :
    After budget p (.polled result) progress ↔ progress = conclude p result := by
  unfold conclude
  cases hverdict : verdict? result with
  | none =>
    have hundecided : Undecided (.polled result) := verdict?_eq_none_iff.mp hverdict
    cases progress with
    | finished found =>
      have hnot : ¬ Decides budget (.polled result) found :=
        fun hdecides ↦ hdecides.not_undecided hundecided
      simp [After, hnot]
    | polling q => simp [After, hundecided]
  | some found =>
    have hdecides : Decides budget (.polled result) found :=
      verdict?_eq_some_iff.mp hverdict
    cases progress with
    | finished other =>
      simp only [After, Progress.finished.injEq]
      constructor
      · intro hother
        have hverdict' := verdict?_eq_some_iff.mpr hother
        exact Option.some.inj (hverdict'.symm.trans hverdict)
      · rintro rfl
        exact hdecides
    | polling q => simp [After, hdecides.not_undecided]

/-- A poll within the budget, after its first look at the clock. -/
def pollRest (c : Client) (p : Polling) (now : Duration) : Program Progress := do
  Program.query (.sleep (min c.config.pollInterval (c.remaining p now)))
  let timeout := min c.config.operationTimeout (c.remaining p (← Program.query .clock))
  let (result, _) ← (queryStatus p.operationId timeout).run.run p.authorization
  match verdict? result with
  | some found => return .finished found
  | none => return .polling p

theorem poll_eq (c : Client) (p : Polling) : c.poll p = Program.query .clock >>= fun now ↦
    if (c.remaining p now).isZero then
      pure (.finished (.error (.attemptExpired c.config.attemptBudget)))
    else c.pollRest p now := rfl

theorem runs_conclude_iff {progress : Progress} :
    Runs (match verdict? result with
      | some found => pure (.finished found)
      | none => pure (.polling p) : Program Progress) events progress ↔
      events = [] ∧ progress = conclude p result := by
  unfold conclude
  cases verdict? result with
  | none => exact runs_pure_iff
  | some found => exact runs_pure_iff

theorem runs_pollRest_iff (h : p.operationId ≠ "") {now : Duration} {progress : Progress} :
    Runs (c.pollRest p now) events progress ↔
      ∃ later asked result,
        events = ⟨.sleep (min c.config.pollInterval (leftOver c.config p now)), ()⟩ ::
          ⟨.clock, later⟩ :: asked ∧
        StatusCourse p (min c.config.operationTimeout (leftOver c.config p later)) asked result ∧
        progress = conclude p result := by
  unfold pollRest
  constructor
  · intro hrun
    obtain ⟨_, rest, rfl, hslept⟩ := runs_query_bind_iff.mp hrun
    obtain ⟨later, rest, rfl, hlater⟩ := runs_query_bind_iff.mp hslept
    obtain ⟨asked, rest, ⟨result, left⟩, rfl, hask, hdone⟩ := runs_bind_iff.mp hlater
    obtain ⟨rfl, rfl⟩ := runs_conclude_iff.mp hdone
    obtain ⟨rfl, hcourse⟩ := (yields_queryStatus_iff h).mp hask
    exact ⟨later, asked, result, by simp [remaining_eq], hcourse, rfl⟩
  · rintro ⟨later, asked, result, rfl, hcourse, rfl⟩
    apply runs_query_bind_iff.mpr
    refine ⟨(), _, rfl, runs_query_bind_iff.mpr ⟨later, _, rfl, runs_bind_iff.mpr ?_⟩⟩
    exact ⟨asked, [], (result, p.authorization), by simp,
      (yields_queryStatus_iff h).mpr ⟨rfl, hcourse⟩, runs_conclude_iff.mpr ⟨rfl, rfl⟩⟩

theorem runs_poll_split {progress : Progress} :
    Runs (c.poll p) events progress ↔ ∃ now rest, events = ⟨.clock, now⟩ :: rest ∧
      ((c.config.attemptBudget ≤ now - p.started ∧ rest = [] ∧
          progress = .finished (.error (.attemptExpired c.config.attemptBudget))) ∨
        now - p.started < c.config.attemptBudget ∧ Runs (c.pollRest p now) rest progress) := by
  rw [poll_eq, runs_query_bind_iff]
  apply exists_congr
  intro now
  apply exists_congr
  intro rest
  apply and_congr_right
  intro _
  by_cases hspent : c.config.attemptBudget ≤ now - p.started
  · have hleft : ¬ now - p.started < c.config.attemptBudget := by
      rw [Duration.lt_def, Nat.not_lt]
      exact hspent
    rw [if_pos (isZero_remaining_iff.mpr hspent), runs_pure_iff]
    simp [hspent, hleft]
  · have hleft : now - p.started < c.config.attemptBudget := by
      rw [Duration.lt_def]
      exact Nat.not_le.mp hspent
    rw [if_neg (mt isZero_remaining_iff.mp hspent)]
    simp [hspent, hleft]

theorem runs_poll_iff (h : p.operationId ≠ "") {progress : Progress} :
    Runs (c.poll p) events progress ↔
      ∃ turn, TurnCourse c.config p events turn ∧ After c.config.attemptBudget p turn progress := by
  rw [runs_poll_split]
  constructor
  · rintro ⟨now, rest, rfl, ⟨hspent, rfl, rfl⟩ | ⟨hleft, hrest⟩⟩
    · exact ⟨.spent, .spent hspent, .spent⟩
    · obtain ⟨later, asked, result, rfl, hask, rfl⟩ := (runs_pollRest_iff h).mp hrest
      exact ⟨.polled result, .polled hleft hask, after_polled_iff.mpr rfl⟩
  · rintro ⟨turn, hturn, hafter⟩
    cases hturn with
    | @spent now hspent =>
      cases progress with
      | finished found =>
        cases hafter
        exact ⟨now, [], rfl, Or.inl ⟨hspent, rfl, rfl⟩⟩
      | polling q => exact nomatch hafter.1
    | @polled now later hleft asked result hask =>
      have hprogress := after_polled_iff.mp hafter
      exact ⟨now, _, rfl, Or.inr
        ⟨hleft, (runs_pollRest_iff h).mpr ⟨later, asked, result, rfl, hask, hprogress⟩⟩⟩

end Enrollment.Client
