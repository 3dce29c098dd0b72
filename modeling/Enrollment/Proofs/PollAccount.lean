import Enrollment.Proofs.Attempt
import Enrollment.Proofs.Time
import Mathlib.Algebra.Order.Floor.Div
namespace Enrollment.Client

/-!
# How many polls fit in a budget

Each turn that polls sleeps for an interval, or for what is left of the budget,
so the polls of an attempt are at most as many as there are intervals in what
the first look at the clock found left.
-/

open Program Session

variable {config : Config} {p : Polling} {events : List Event} {t u : Duration}

/-! ### What is left of the budget -/

/-- So many intervals cover what is left. -/
def rounds (left interval : Duration) : Nat := left.nanos ⌈/⌉ interval.nanos

theorem rounds_eq (left interval : Duration) :
    rounds left interval = (left.nanos + interval.nanos - 1) / interval.nanos :=
  Nat.ceilDiv_eq_add_pred_div _ _

theorem rounds_mono {left left' interval : Duration} (h : left ≤ left') :
    rounds left interval ≤ rounds left' interval := by
  have hnanos : left.nanos ≤ left'.nanos := h
  rw [rounds_eq, rounds_eq]
  exact Nat.div_le_div_right (by omega)

theorem rounds_of_zero {left interval : Duration} (hinterval : .zero < interval)
    (h : left.nanos = 0) : rounds left interval = 0 := by
  have hpos : 0 < interval.nanos := hinterval
  rw [rounds_eq, h]
  exact Nat.div_eq_of_lt (by omega)

/-- A sleep covers one more interval, or all that is left. -/
theorem rounds_sleep {left interval : Duration} (hinterval : .zero < interval)
    (hleft : .zero < left) :
    1 + rounds (left - min interval left) interval = rounds left interval := by
  have hi : 0 < interval.nanos := hinterval
  have hl : 0 < left.nanos := hleft
  rw [rounds_eq, rounds_eq, Duration.nanos_sub, Duration.nanos_min]
  rcases Nat.le_total left.nanos interval.nanos with hshort | hlong
  · have hnone : left.nanos - min interval.nanos left.nanos = 0 := by omega
    have hlast : (0 + interval.nanos - 1) / interval.nanos = 0 := Nat.div_eq_of_lt (by omega)
    have hone : (left.nanos + interval.nanos - 1) / interval.nanos = 1 :=
      Nat.div_eq_of_lt_le (by omega) (by omega)
    rw [hnone, hlast, hone]
  · have hwhole : left.nanos + interval.nanos - 1 =
        (left.nanos - min interval.nanos left.nanos + interval.nanos - 1) + interval.nanos := by
      omega
    rw [hwhole, Nat.add_div_right _ hi, Nat.add_comm]

theorem leftOver_mono (h : t ≤ u) : leftOver config p u ≤ leftOver config p t := by
  have hnanos : t.nanos ≤ u.nanos := h
  simp only [leftOver, Duration.le_def, Duration.nanos_sub]
  omega

theorem leftOver_pos_iff :
    .zero < leftOver config p t ↔ t - p.started < config.attemptBudget := by
  simp only [leftOver, Duration.lt_def, Duration.nanos_sub, Duration.zero]
  omega

/-- After so much time that much less is left. -/
theorem leftOver_add (hstart : p.started ≤ t) (d : Duration) :
    leftOver config p (t + d) = leftOver config p t - d := by
  have hnanos : p.started.nanos ≤ t.nanos := hstart
  have heq : (leftOver config p (t + d)).nanos = (leftOver config p t - d).nanos := by
    simp only [leftOver, Duration.nanos_sub, Duration.nanos_add]
    omega
  exact congrArg Duration.mk heq

/-! ### One turn -/

def Turn.isPoll : Turn → Bool
  | .spent => false
  | .polled _ => true

def pollCount (turns : List Turn) : Nat := turns.countP Turn.isPoll

@[simp] theorem pollCount_nil : pollCount [] = 0 := rfl

@[simp] theorem pollCount_cons_spent (turns : List Turn) :
    pollCount (.spent :: turns) = pollCount turns :=
  List.countP_cons_of_neg Bool.false_ne_true

@[simp] theorem pollCount_cons_polled (result : Except Error Outcome) (turns : List Turn) :
    pollCount (.polled result :: turns) = 1 + pollCount turns :=
  (List.countP_cons_of_pos rfl).trans (Nat.add_comm _ _)

/-- A turn leaves less of the budget, by at least an interval if it polls and as
much is left. -/
theorem TurnCourse.rounds_le {turn : Turn} (h : TurnCourse config p events turn)
    (htime : Timed Pace.forward t events u) (hstart : p.started ≤ t)
    (hinterval : .zero < config.pollInterval) :
    pollCount [turn] + rounds (leftOver config p u) config.pollInterval ≤
      rounds (leftOver config p t) config.pollInterval := by
  cases h with
  | spent h => simpa using rounds_mono (leftOver_mono htime.le)
  | @polled now later hleft asked result hask =>
    obtain ⟨t₁, ⟨hnow, hlook⟩, hrest⟩ := Timed.cons_iff.mp htime
    obtain ⟨t₂, hsleep, hlast⟩ := Timed.cons_iff.mp hrest
    have hslept : now + min config.pollInterval (leftOver config p now) ≤ u := by
      have hend : t₂ ≤ u := hlast.le
      simp only [Pace.forward, Duration.le_def, Duration.nanos_add] at hlook hsleep hend ⊢
      omega
    have hbefore : p.started ≤ now := Std.le_trans hstart hnow
    have hafter : leftOver config p u ≤
        leftOver config p (now + min config.pollInterval (leftOver config p now)) :=
      leftOver_mono hslept
    rw [leftOver_add hbefore] at hafter
    calc pollCount [.polled result] + rounds (leftOver config p u) config.pollInterval
        ≤ 1 + rounds (leftOver config p now - min config.pollInterval (leftOver config p now))
            config.pollInterval := Nat.add_le_add_left (rounds_mono hafter) 1
      _ = rounds (leftOver config p now) config.pollInterval :=
          rounds_sleep hinterval (leftOver_pos_iff.mpr hleft)
      _ ≤ rounds (leftOver config p t) config.pollInterval := rounds_mono (leftOver_mono hnow)

theorem eq_of_deadline? {now timeout deadline : Duration}
    (h : deadline? now timeout = some deadline) : deadline = now + timeout := by
  unfold deadline? at h
  split at h
  · exact (Option.some.inj h).symm
  · exact nomatch h

/-- A question after the status lasts at most until the end of its wait. -/
theorem StatusCourse.ends_by {timeout : Duration} {result : Except Error Outcome}
    (h : StatusCourse p timeout events result) (htime : Timed Pace.exact t events u) :
    u ≤ t + timeout := by
  have hwait : t ≤ t + timeout := Nat.le_add_right _ _
  cases h with
  | nameless h | bare hid h =>
    obtain ⟨_, rfl, hlast⟩ := Timed.cons_iff.mp htime
    obtain rfl := Timed.nil_iff.mp hlast
    exact hwait
  | untimed hid hcred h =>
    obtain ⟨_, rfl, hlook⟩ := Timed.cons_iff.mp htime
    obtain ⟨_, ⟨-, rfl⟩, hlast⟩ := Timed.cons_iff.mp hlook
    obtain rfl := Timed.nil_iff.mp hlast
    exact hwait
  | called hid hcred hd =>
    obtain ⟨_, rfl, hlook⟩ := Timed.cons_iff.mp htime
    obtain ⟨_, ⟨rfl, rfl⟩, hsend⟩ := Timed.cons_iff.mp hlook
    obtain ⟨v, ⟨-, hcutoff⟩, hlast⟩ := Timed.cons_iff.mp hsend
    obtain rfl := Timed.nil_iff.mp hlast
    rw [eq_of_deadline? hd] at hcutoff
    simp only [Board.cutoff, Duration.le_def, Duration.nanos_max, Duration.nanos_add] at hcutoff ⊢
    omega

theorem StatusCourse.sleep_not_mem {timeout : Duration} {result : Except Error Outcome}
    (h : StatusCourse p timeout events result) : Topic.sleep ∉ topics events := by
  cases h <;> simp [topics, Query.topic, DeviceQuery.topic]

/-- With exact sleeps and waits no turn goes on beyond the budget. -/
theorem TurnCourse.elapsed_le {turn : Turn} (h : TurnCourse config p events turn)
    (htime : Timed Pace.exact t events u) (hstart : p.started ≤ t) :
    u - p.started ≤ max (t - p.started) config.attemptBudget := by
  cases h with
  | spent h =>
    obtain ⟨_, ⟨-, rfl⟩, hlast⟩ := Timed.cons_iff.mp htime
    obtain rfl := Timed.nil_iff.mp hlast
    simp only [Duration.le_def, Duration.nanos_max]
    omega
  | @polled now later hleft asked result hask =>
    obtain ⟨_, ⟨rfl, rfl⟩, hslept⟩ := Timed.cons_iff.mp htime
    obtain ⟨t₂, hsleep, hlook⟩ := Timed.cons_iff.mp hslept
    obtain ⟨_, ⟨rfl, rfl⟩, hasked⟩ := Timed.cons_iff.mp hlook
    have hend := hask.ends_by hasked
    simp only [Pace.exact] at hsleep
    simp only [hsleep, leftOver, Duration.le_def, Duration.lt_def, Duration.nanos_add,
      Duration.nanos_min, Duration.nanos_max, Duration.nanos_sub] at *
    omega

/-- The same turn at an instant pace leaves exactly so much less. -/
theorem TurnCourse.rounds_eq {turn : Turn} (h : TurnCourse config p events turn)
    (htime : Timed Pace.instant t events u) (hstart : p.started ≤ t)
    (hinterval : .zero < config.pollInterval) :
    pollCount [turn] + rounds (leftOver config p u) config.pollInterval =
      rounds (leftOver config p t) config.pollInterval := by
  cases h with
  | spent h =>
    obtain ⟨_, ⟨-, rfl⟩, hlast⟩ := Timed.cons_iff.mp htime
    obtain rfl := Timed.nil_iff.mp hlast
    simp
  | @polled now later hleft asked result hask =>
    obtain ⟨_, ⟨rfl, rfl⟩, hslept⟩ := Timed.cons_iff.mp htime
    obtain ⟨t₂, hsleep, hlook⟩ := Timed.cons_iff.mp hslept
    obtain ⟨_, ⟨rfl, rfl⟩, hasked⟩ := Timed.cons_iff.mp hlook
    obtain rfl := hasked.eq_of_no_sleep hask.sleep_not_mem
    simp only [Pace.instant] at hsleep
    rw [hsleep, leftOver_add hstart, pollCount_cons_polled, pollCount_nil]
    exact rounds_sleep hinterval (leftOver_pos_iff.mpr hleft)

/-! ### All turns -/

theorem pollCount_cons (turn : Turn) (turns : List Turn) :
    pollCount (turn :: turns) = pollCount [turn] + pollCount turns := by
  cases turn <;> simp

/-- What a turn carries over from its end to its beginning, all turns do. -/
theorem Turns.along {pace : Pace} (hpace : ∀ e t u, pace e t u → Pace.forward e t u)
    {motive : Duration → List Turn → Prop} {turns : List Turn} (hnil : motive u [])
    (hcons : ∀ {turn : Turn} {turns : List Turn} {events : List Event} {t between : Duration},
      TurnCourse config p events turn → Timed pace t events between → p.started ≤ t →
      motive between turns → motive t (turn :: turns))
    (h : Turns config p events turns) (htime : Timed pace t events u) (hstart : p.started ≤ t) :
    motive t turns := by
  induction h generalizing t with
  | nil =>
    obtain rfl := Timed.nil_iff.mp htime
    exact hnil
  | cons hturn _ ih =>
    obtain ⟨between, hbefore, hafter⟩ := Timed.append_iff.mp htime
    have hforward : t ≤ between := (hbefore.mono hpace).le
    exact hcons hturn hbefore hstart (ih hafter (Std.le_trans hstart hforward))

/-- What is left at the end of each turn is what the other turns begin with. -/
theorem Turns.rounds_le {turns : List Turn} (h : Turns config p events turns)
    (htime : Timed Pace.forward t events u) (hstart : p.started ≤ t)
    (hinterval : .zero < config.pollInterval) :
    pollCount turns + rounds (leftOver config p u) config.pollInterval ≤
      rounds (leftOver config p t) config.pollInterval := by
  refine h.along (fun _ _ _ h ↦ h) (motive := fun t turns ↦ pollCount turns +
    rounds (leftOver config p u) config.pollInterval ≤
      rounds (leftOver config p t) config.pollInterval) (by simp) ?_ htime hstart
  intro turn turns events t between hturn hbefore hbegun hrest
  have hfirst := hturn.rounds_le hbefore hbegun hinterval
  rw [pollCount_cons]
  omega

theorem Turns.rounds_eq {turns : List Turn} (h : Turns config p events turns)
    (htime : Timed Pace.instant t events u) (hstart : p.started ≤ t)
    (hinterval : .zero < config.pollInterval) :
    pollCount turns + rounds (leftOver config p u) config.pollInterval =
      rounds (leftOver config p t) config.pollInterval := by
  refine h.along Pace.forward_of_instant (motive := fun t turns ↦ pollCount turns +
    rounds (leftOver config p u) config.pollInterval =
      rounds (leftOver config p t) config.pollInterval) (by simp) ?_ htime hstart
  intro turn turns events t between hturn hbefore hbegun hrest
  have hfirst := hturn.rounds_eq hbefore hbegun hinterval
  rw [pollCount_cons]
  omega

theorem Turns.elapsed_le {turns : List Turn} (h : Turns config p events turns)
    (htime : Timed Pace.exact t events u) (hstart : p.started ≤ t) :
    u - p.started ≤ max (t - p.started) config.attemptBudget := by
  have hnone : u - p.started ≤ max (u - p.started) config.attemptBudget := by
    simp only [Duration.le_def, Duration.nanos_max]
    omega
  refine h.along Pace.forward_of_exact (motive := fun t _ ↦
    u - p.started ≤ max (t - p.started) config.attemptBudget) hnone ?_ htime hstart
  intro turn turns events t between hturn hbefore hbegun hrest
  have hfirst := hturn.elapsed_le hbefore hbegun
  simp only [Duration.le_def, Duration.nanos_max] at hfirst hrest ⊢
  omega

theorem Turns.count_registrationId {turns : List Turn} (h : Turns config p events turns) :
    (topics events).count .registrationId = pollCount turns := by
  induction h with
  | nil => rfl
  | @cons before after turn turns hturn _ ih =>
    have hfirst : (topics before).count .registrationId = pollCount [turn] := by
      cases hturn with
      | spent h => rfl
      | polled h hask => cases hask <;> rfl
    rw [topics_append, List.count_append, hfirst, ih, ← pollCount_cons]

/-! ### How the turns end -/

variable {budget : Duration} {n : Nat} {turns : List Turn} {progress : Progress}

theorem pollCount_eq_length (h : ∀ turn ∈ turns, Undecided turn) :
    pollCount turns = turns.length := by
  apply List.countP_eq_length.mpr
  intro turn hturn
  cases h turn hturn <;> rfl

/-- Turns that leave the attempt undecided have all polled, each of them. -/
theorem AfterAll.finished_of_pollCount_lt (h : AfterAll budget p n turns progress)
    (hcount : pollCount turns < n) : ∃ found, progress = .finished found := by
  cases progress with
  | finished found => exact ⟨found, rfl⟩
  | polling q =>
    obtain ⟨-, hlength, hundecided⟩ := h
    rw [pollCount_eq_length hundecided, hlength] at hcount
    exact absurd hcount (Nat.lt_irrefl n)

/-- If no poll decides, only a spent turn can end the attempt. -/
theorem AfterAll.expired_of_undecided {found : Except Error Outcome}
    (h : AfterAll budget p n turns (.finished found))
    (hundecided : ∀ result, .polled result ∈ turns → Undecided (.polled result)) :
    found = .error (.attemptExpired budget) ∧ ∃ before, turns = before ++ [.spent] := by
  obtain ⟨before, last, rfl, -, -, hdecides⟩ := h
  cases last with
  | spent =>
    cases hdecides
    exact ⟨rfl, before, rfl⟩
  | polled result =>
    have hlast : Undecided (.polled result) := hundecided result (by simp)
    exact absurd hlast hdecides.not_undecided

theorem turns_append_singleton {before : List Turn} {last : Turn}
    (h : Turns config p events (before ++ [last])) :
    ∃ asked final, events = asked ++ final ∧ Turns config p asked before ∧
      TurnCourse config p final last := by
  induction before generalizing events with
  | nil =>
    cases h with
    | @cons first rest _ _ hturn hrest =>
      cases hrest
      exact ⟨[], first, by simp, .nil, hturn⟩
  | cons turn before ih =>
    cases h with
    | @cons first rest _ _ hturn hrest =>
      obtain ⟨asked, final, rfl, hbefore, hlast⟩ := ih hrest
      exact ⟨first ++ asked, final, by simp, .cons hturn hbefore, hlast⟩

/-- An attempt that ends as expired found its budget spent, unless its last poll
came to that very error. -/
theorem AfterAll.expired_cases {after : Duration} (hturns : Turns config p events turns)
    (h : AfterAll config.attemptBudget p n turns (.finished (.error (.attemptExpired after)))) :
    (after = config.attemptBudget ∧ ∃ before now, events = before ++ [⟨.clock, now⟩] ∧
        config.attemptBudget ≤ now - p.started) ∨
      ∃ before, turns = before ++ [.polled (.error (.attemptExpired after))] := by
  obtain ⟨before, last, rfl, -, -, hdecides⟩ := h
  obtain ⟨asked, final, rfl, -, hlast⟩ := turns_append_singleton hturns
  cases hdecides with
  | spent =>
    cases hlast with
    | @spent now hspent => exact Or.inl ⟨rfl, asked, now, rfl, hspent⟩
  | failed => exact Or.inr ⟨before, rfl⟩

/-! ### The whole phase -/

/-- What a poll phase of up to `n` turns comes to, which first looked at the clock
at `first` and then took these turns. -/
structure PollAccount (c : Client) (p : Polling) (n : Nat) (first : Duration)
    (events : List Event) (turns : List Turn) (progress : Progress) : Prop where
  course : Turns c.config p events turns
  /-- Each poll reads the registration id anew, so they can be counted. -/
  counted : (topics events).count .registrationId = pollCount turns
  atMost : pollCount turns ≤ rounds (leftOver c.config p first) c.config.pollInterval
  finished : rounds (leftOver c.config p first) c.config.pollInterval < n →
    ∃ found, progress = .finished found
  enough : rounds (leftOver c.config p first) c.config.pollInterval < c.enoughTurns
  late : c.config.attemptBudget ≤ first - p.started → events = [⟨.clock, first⟩] ∧
    pollCount turns = 0 ∧ progress = .finished (.error (.attemptExpired c.config.attemptBudget))
  atLeast : first - p.started < c.config.attemptBudget → 0 < pollCount turns
  /-- No turn expires the attempt before its time. -/
  expired : ∀ after, progress = .finished (.error (.attemptExpired after)) →
    (after = c.config.attemptBudget ∧ ∃ before now, events = before ++ [⟨.clock, now⟩] ∧
        c.config.attemptBudget ≤ now - p.started) ∨
      ∃ before, turns = before ++ [.polled (.error (.attemptExpired after))]
  inBudget : ∀ final, Timed Pace.exact first events final →
    final - p.started ≤ max (first - p.started) c.config.attemptBudget
  exactly : ∀ final, Timed Pace.instant first events final →
    (∀ result, .polled result ∈ turns → Undecided (.polled result)) →
    rounds (leftOver c.config p first) c.config.pollInterval < n →
    pollCount turns = rounds (leftOver c.config p first) c.config.pollInterval ∧
      progress = .finished (.error (.attemptExpired c.config.attemptBudget))

theorem rounds_lt_enoughTurns {c : Client} (hvalid : c.config.Valid) (first : Duration) :
    rounds (leftOver c.config p first) c.config.pollInterval < c.enoughTurns := by
  have hinterval : 0 < c.config.pollInterval.nanos := hvalid.positive .pollInterval
  have hleft : (leftOver c.config p first).nanos + c.config.pollInterval.nanos - 1 ≤
      c.config.attemptBudget.nanos + c.config.pollInterval.nanos := by
    simp only [leftOver, Duration.nanos_sub]
    omega
  have hdiv := Nat.div_le_div_right (c := c.config.pollInterval.nanos) hleft
  rw [Nat.add_div_right _ hinterval] at hdiv
  rw [rounds_eq, enoughTurns]
  omega

theorem TurnCourse.head {turn : Turn} (h : TurnCourse config p events turn) :
    ∃ first rest, events = ⟨.clock, first⟩ :: rest ∧
      (config.attemptBudget ≤ first - p.started ∧ rest = [] ∧ turn = .spent ∨
        first - p.started < config.attemptBudget ∧ ∃ result, turn = .polled result) := by
  cases h with
  | spent h => exact ⟨_, [], rfl, Or.inl ⟨h, rfl, rfl⟩⟩
  | @polled now later hleft asked result hask => exact ⟨now, _, rfl, Or.inr ⟨hleft, result, rfl⟩⟩

/-- The first turn is all there is if it comes too late, and else it polls. -/
theorem first_turn (hturns : Turns config p events turns)
    (hall : AfterAll config.attemptBudget p n turns progress) (hn : 0 < n) :
    ∃ first rest, events = ⟨.clock, first⟩ :: rest ∧
      (config.attemptBudget ≤ first - p.started ∧ rest = [] ∧ turns = [.spent] ∧
          progress = .finished (.error (.attemptExpired config.attemptBudget)) ∨
        first - p.started < config.attemptBudget ∧ 0 < pollCount turns) := by
  obtain ⟨m, rfl⟩ := Nat.exists_eq_succ_of_ne_zero hn.ne'
  cases hturns with
  | nil => exact absurd hall not_afterAll_succ_nil
  | @cons before after turn turns hturn hrest =>
    obtain ⟨first, rest, rfl, ⟨hspent, rfl, rfl⟩ | ⟨hleft, result, rfl⟩⟩ := hturn.head
    · rcases afterAll_succ_cons_iff.mp hall with ⟨rfl, found, rfl, hdecides⟩ | ⟨hundecided, -⟩
      · cases hrest
        cases hdecides
        exact ⟨first, [], by simp, Or.inl ⟨hspent, rfl, rfl, rfl⟩⟩
      · exact nomatch hundecided
    · exact ⟨first, rest ++ after, rfl, Or.inr ⟨hleft, by simp⟩⟩

theorem leftOver_of_spent (h : config.attemptBudget ≤ t - p.started) :
    (leftOver config p t).nanos = 0 :=
  Nat.sub_eq_zero_of_le h

/-- At an instant pace polls that decide nothing go on until all is used up. -/
theorem pollCount_eq_rounds {first final : Duration} (hinterval : .zero < config.pollInterval)
    (hstart : p.started ≤ first) (hturns : Turns config p events turns)
    (htime : Timed Pace.instant first events final) {before : List Turn}
    (hspent : turns = before ++ [.spent]) :
    pollCount turns = rounds (leftOver config p first) config.pollInterval := by
  obtain ⟨asked, last, rfl, -, hlast⟩ := turns_append_singleton (hspent ▸ hturns)
  obtain ⟨between, -, hend⟩ := Timed.append_iff.mp htime
  have hcount := hturns.rounds_eq htime hstart hinterval
  cases hlast with
  | @spent now hover =>
    obtain ⟨_, ⟨rfl, rfl⟩, hnothing⟩ := Timed.cons_iff.mp hend
    obtain rfl := Timed.nil_iff.mp hnothing
    rw [rounds_of_zero hinterval (leftOver_of_spent hover)] at hcount
    exact hcount

theorem pollAccount {c : Client} (hvalid : c.config.Valid) (hstart : p.started ≤ t)
    (htime : Timed Pace.forward t events u) (hturns : Turns c.config p events turns)
    (hall : AfterAll c.config.attemptBudget p n turns progress) (hn : 0 < n) :
    ∃ first, events.head? = some ⟨.clock, first⟩ ∧
      PollAccount c p n first events turns progress := by
  have hinterval : .zero < c.config.pollInterval := hvalid.positive .pollInterval
  obtain ⟨first, rest, rfl, hfirst⟩ := first_turn hturns hall hn
  obtain ⟨hbefore, hfrom⟩ := Timed.of_clock htime
  have hbegun : p.started ≤ first := Std.le_trans hstart hbefore
  have hcount : pollCount turns ≤ rounds (leftOver c.config p first) c.config.pollInterval := by
    have hrounds := hturns.rounds_le hfrom hbegun hinterval
    omega
  have hfinished (hlt : rounds (leftOver c.config p first) c.config.pollInterval < n) :
      ∃ found, progress = .finished found :=
    hall.finished_of_pollCount_lt (Nat.lt_of_le_of_lt hcount hlt)
  refine ⟨first, rfl, ?_⟩
  exact {
    course := hturns
    counted := hturns.count_registrationId
    atMost := hcount
    finished := hfinished
    enough := rounds_lt_enoughTurns hvalid first
    late := by
      intro hlate
      rcases hfirst with ⟨-, rfl, rfl, rfl⟩ | ⟨hleft, -⟩
      · exact ⟨rfl, rfl, rfl⟩
      · exact absurd hleft (Std.not_lt_of_ge hlate)
    atLeast := by
      intro hleft
      rcases hfirst with ⟨hlate, -⟩ | ⟨-, hpos⟩
      · exact absurd hleft (Std.not_lt_of_ge hlate)
      · exact hpos
    expired := by
      rintro after rfl
      exact hall.expired_cases hturns
    inBudget := fun final hexact ↦ hturns.elapsed_le hexact hbegun
    exactly := by
      intro final hinstant hundecided hlt
      obtain ⟨found, rfl⟩ := hfinished hlt
      obtain ⟨rfl, before, hspent⟩ := hall.expired_of_undecided hundecided
      exact ⟨pollCount_eq_rounds hinterval hbegun hturns hinstant hspent, rfl⟩ }

/-- The poll phase that follows a registration, on a clock that never goes back,
keeps its account. -/
theorem poll_phase_accounted {c c' : Client} {before polling : List Event}
    (hvalid : c.config.Valid) (hbegin : Runs c.begin before (.polling p, c'))
    (hpolls : Runs (c'.polls n (.polling p)) polling progress) (hn : 0 < n)
    (hclock : Timed Pace.forward t (before ++ polling) u) :
    ∃ first turns, polling.head? = some ⟨.clock, first⟩ ∧
      PollAccount c' p n first polling turns progress ∧ c'.config = c.config := by
  obtain ⟨started, registered, reply, authorization, -, hcases⟩ := runs_begin_iff.mp hbegin
  rcases hcases with ⟨found, -, hsettled, -⟩ | ⟨outcome, id, rfl, hpending, hp, rfl, rfl⟩
  · exact nomatch hsettled
  obtain rfl := Progress.polling.inj hp
  obtain ⟨between, hregister, hafter⟩ := Timed.append_iff.mp hclock
  obtain ⟨-, hfrom⟩ := Timed.of_clock hregister
  have hstart : started ≤ between := hfrom.le
  obtain ⟨turns, hturns, hall⟩ := (runs_polls_iff hpending.named n).mp hpolls
  have hsame : ({ c with state := .assigning } : Client).config.Valid := hvalid
  obtain ⟨first, hhead, haccount⟩ := pollAccount hsame hstart hafter hturns hall hn
  exact ⟨first, turns, hhead, haccount, rfl⟩

/-- A service that never answers a question after the status. -/
def unanswered : (q : Query) → q.Answer
  | .send (.getStatus ..) _ => .accepted .nothing
  | query => granted query

/-- Where an attempt stands that polls. -/
def Progress.polling? : Progress → Option Polling
  | .finished _ => none
  | .polling p => some p

theorem Progress.eq_polling {progress : Progress} (h : progress.polling?.isSome) (p : Polling) :
    progress = .polling (progress.polling?.getD p) := by
  cases progress with
  | finished found => exact nomatch h
  | polling p => rfl

/-- Two seconds and a half, in intervals of one second, are used up by three polls. -/
theorem poll_phase_accounted_unanswered :
    ∃ (c c' : Client) (p : Polling) (before polling : List Event) (progress : Progress)
      (u : Duration), c.config.Valid ∧ Runs c.begin before (.polling p, c') ∧
      Runs (c'.polls 4 (.polling p)) polling progress ∧ 0 < 4 ∧
      Timed Pace.forward .zero (before ++ polling) u ∧
      ∃ first turns, polling.head? = some ⟨.clock, first⟩ ∧
        PollAccount c' p 4 first polling turns progress ∧ c'.config = c.config ∧
        pollCount turns = 3 := by
  let config : Config := { Config.ofScope "0ne00000001" .https with
    pollInterval := .ofSecs 1, attemptBudget := .ofMillis 2500 }
  let c : Client := ⟨config, .symmetricKey, .notStarted⟩
  let begun := c.begin.passing unanswered .zero
  have hvalid : c.config.Valid := Config.validate_eq_ok_iff.mp (by decide +kernel)
  have hpolling : begun.2.1.1.polling?.isSome := by decide +kernel
  let p := begun.2.1.1.polling?.getD ⟨.zero, "", .empty⟩
  let c' := begun.2.1.2
  have hbegin : Runs c.begin begun.1 (.polling p, c') := by
    rw [← Progress.eq_polling hpolling ⟨.zero, "", .empty⟩]
    exact runs_passing unanswered c.begin .zero
  let polled := (c'.polls 4 (.polling p)).passing unanswered begun.2.2
  have hpolls : Runs (c'.polls 4 (.polling p)) polled.1 polled.2.1 :=
    runs_passing unanswered _ begun.2.2
  have hclock : Timed Pace.forward .zero (begun.1 ++ polled.1) polled.2.2 := by
    apply Timed.append_iff.mpr
    exact ⟨begun.2.2, (timed_passing unanswered c.begin .zero).forward,
      (timed_passing unanswered _ begun.2.2).forward⟩
  have hthree : (topics polled.1).count .registrationId = 3 := by decide +kernel
  obtain ⟨first, turns, hhead, haccount, hconfig⟩ :=
    poll_phase_accounted hvalid hbegin hpolls (by decide) hclock
  exact ⟨c, c', p, _, _, _, _, hvalid, hbegin, hpolls, by decide, hclock, first, turns, hhead,
    haccount, hconfig, haccount.counted.symm.trans hthree⟩

end Enrollment.Client
