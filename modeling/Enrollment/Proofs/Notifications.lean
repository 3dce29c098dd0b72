import Enrollment.Proofs.AttemptResult
import Mathlib.Data.List.Chain
namespace Enrollment.Client

/-!
# What is told of a client's states

A client may be registered any number of times.  Each registration is told of as
one that begins, perhaps as one that the service takes its time for, and as one
that has ended; between two of them the client is at rest.
-/

open Program Session

variable {c c' : Client} {config : Config} {events : List Event} {found : Except Error Outcome}
  {outcome : Outcome}

/-- Registrations one after another that have all returned, each with what was
asked and told in it and with its result. -/
inductive Registrations : Client → List (List Event × Except Error Outcome) → Client → Prop
  | nil (c : Client) : Registrations c [] c
  | cons {c c' last : Client} {turns : Nat} {events : List Event} {found : Except Error Outcome}
      {calls : List (List Event × Except Error Outcome)}
      (h : Runs (c.attempt turns) events (.finished found, c'))
      (hrest : Registrations c' calls last) : Registrations c ((events, found) :: calls) last

def told (calls : List (List Event × Except Error Outcome)) : List State :=
  calls.flatMap fun call ↦ entered call.1

/-- The register call was answered by an outcome that leaves an operation to ask
for. -/
def PendingReply (config : Config) (events : List Event) : Prop :=
  ∃ outcome id, RegisterReply config events outcome ∧ Pending outcome id

/-- The state in which a result leaves a client. -/
inductive EndState : Except Error Outcome → State → Prop
  | assigned {outcome : Outcome} (h : outcome.status = .assigned) : EndState (.ok outcome) .assigned
  | failed {outcome : Outcome} (h : outcome.status = .failed) : EndState (.ok outcome) .failed
  | disabled {outcome : Outcome} (h : outcome.status = .disabled) : EndState (.ok outcome) .disabled
  | error (error : Error) : EndState (.error error) .error

def Ended (state : State) : Prop :=
  state = .assigned ∨ state = .failed ∨ state = .disabled ∨ state = .error

/-! ### One registration -/

theorem endState_finalState (h : Final found) : EndState found (finalState found) := by
  cases found with
  | error error => exact .error error
  | ok outcome =>
    have hstate : finalState (.ok outcome) = State.ofStatus outcome.status := rfl
    unfold Final at h
    rw [hstate]
    cases hstatus : outcome.status with
    | unassigned => simp [hstatus, Status.isTerminal] at h
    | assigning => simp [hstatus, Status.isTerminal] at h
    | assigned => exact .assigned hstatus
    | failed => exact .failed hstatus
    | disabled => exact .disabled hstatus

theorem EndState.ended {state : State} (h : EndState found state) : Ended state := by
  cases h with
  | assigned h => exact Or.inl rfl
  | failed h => exact Or.inr (Or.inl rfl)
  | disabled h => exact Or.inr (Or.inr (Or.inl rfl))
  | error error => exact Or.inr (Or.inr (Or.inr rfl))

theorem entered_announced {next : State} (h : c.state ≠ next) :
    entered (c.announced next) = [next] := by
  unfold announced
  rw [if_neg h]
  rfl

theorem entered_register {mechanism : Mechanism} {reply : Except Error Outcome}
    {authorization : Authorization}
    (h : (register config mechanism).Yields .empty events reply authorization) :
    entered events = [] :=
  entered_eq_nil ((register_course h).not_mem (by decide))

theorem pendingReply_iff {asks : List Event} {reply : Except Error Outcome} {turns : List Turn}
    (hasks : asked events = asks) (hseen : Seen c asks reply turns) :
    PendingReply c.config events ↔ ∃ outcome id, reply = .ok outcome ∧ Pending outcome id := by
  have hreply (outcome : Outcome) :
      RegisterReply c.config events outcome ↔ reply = .ok outcome := by
    rw [← registerReply_asked_iff, hasks]
    exact hseen.registerReply_iff
  simp only [PendingReply, hreply]

/-- What is told of one registration of a client that is at rest, and where it
leaves the client. -/
theorem attempt_states {n : Nat} (hrest : c.state ≠ .registering)
    (h : Runs (c.attempt n) events (.finished found, c')) :
    c'.config = c.config ∧ EndState found c'.state ∧
      ((PendingReply c.config events ∧ entered events = [.registering, .assigning, c'.state]) ∨
        ¬ PendingReply c.config events ∧ entered events = [.registering, c'.state]) := by
  have hclock (started : Duration) (rest : List Event) :
      entered (⟨.clock, started⟩ :: rest) = entered rest := rfl
  have henter (state : State) (rest : List Event) :
      entered (⟨.enter state, ()⟩ :: rest) = state :: entered rest := rfl
  have hnil : entered [] = [] := rfl
  cases runs_attempt_iff.mp h with
  | settled hregister hsettles =>
    refine ⟨rfl, endState_finalState hsettles.final, Or.inr ⟨?_, ?_⟩⟩
    · rw [pendingReply_iff (asked_settled (asked_register hregister) _ _) (.registered hregister)]
      rintro ⟨outcome, id, rfl, hpending⟩
      exact settles_ok_pending hpending hsettles
    · rw [hclock, entered_append, entered_append, entered_announced hrest,
        entered_register hregister, henter, hnil]
      rfl
  | @decided started registered polls outcome id authorization turns _ hregister hpending hturns
      hall =>
    refine ⟨rfl, endState_finalState hall.final, Or.inl ⟨?_, ?_⟩⟩
    · have hasks := asked_polled c started (asked_register hregister)
        (asked_turns hturns) .registering [⟨.enter (finalState found), ()⟩] rfl
      rw [pendingReply_iff hasks (.polled hregister hpending.operation hturns)]
      exact ⟨outcome, id, rfl, hpending⟩
    · rw [hclock, entered_append, entered_append, entered_append, entered_announced hrest,
        entered_register hregister, henter, entered_eq_nil (hturns.not_mem (by decide)), henter,
        hnil]
      rfl

/-! ### Any number of registrations -/

/-- What is told after a state that was told: no state again, and after an end
only that the next registration begins. -/
def MayFollow (state next : State) : Prop :=
  state ≠ next ∧ (Ended state → next = .registering)

theorem Ended.ne_registering {state : State} (h : Ended state) : state ≠ .registering := by
  rcases h with rfl | rfl | rfl | rfl <;> exact nofun

theorem Ended.ne_assigning {state : State} (h : Ended state) : state ≠ .assigning := by
  rcases h with rfl | rfl | rfl | rfl <;> exact nofun

theorem mayFollow_registering {state : State} (h : state ≠ .registering) :
    MayFollow state .registering :=
  ⟨h, fun _ ↦ rfl⟩

theorem registering_mayFollow {next : State} (h : next ≠ .registering) :
    MayFollow .registering next :=
  ⟨h.symm, fun hended ↦ absurd rfl hended.ne_registering⟩

theorem assigning_mayFollow {next : State} (h : next ≠ .assigning) :
    MayFollow .assigning next :=
  ⟨h.symm, fun hended ↦ absurd rfl hended.ne_assigning⟩

/-- What is told of a registration continues what was told before, and may be
continued from the state in which it leaves the client. -/
theorem chain_attempt {n : Nat} (hrest : c.state ≠ .registering)
    (h : Runs (c.attempt n) events (.finished found, c')) {rest : List State}
    (hchain : List.IsChain MayFollow (c'.state :: rest)) :
    List.IsChain MayFollow (c.state :: (entered events ++ rest)) := by
  obtain ⟨-, hend, ⟨-, hentered⟩ | ⟨-, hentered⟩⟩ := attempt_states hrest h
  · rw [hentered]
    apply List.IsChain.cons_cons (mayFollow_registering hrest)
    apply List.IsChain.cons_cons (registering_mayFollow (by exact nofun))
    exact List.IsChain.cons_cons (assigning_mayFollow hend.ended.ne_assigning) hchain
  · rw [hentered]
    apply List.IsChain.cons_cons (mayFollow_registering hrest)
    exact List.IsChain.cons_cons (registering_mayFollow hend.ended.ne_registering) hchain

theorem told_cons (events : List Event) (found : Except Error Outcome)
    (calls : List (List Event × Except Error Outcome)) :
    told ((events, found) :: calls) = entered events ++ told calls := rfl

/-- What is told of a client in these registrations, begun in the state `first`,
and the state they leave it in. -/
structure StatesTold (config : Config) (first : State)
    (calls : List (List Event × Except Error Outcome)) (last : State) : Prop where
  each : ∀ events found, (events, found) ∈ calls → ∃ final, EndState found final ∧
    ((PendingReply config events ∧ entered events = [.registering, .assigning, final]) ∨
      ¬ PendingReply config events ∧ entered events = [.registering, final])
  state : last = (told calls).getLastD first
  chain : List.IsChain MayFollow (first :: told calls)

theorem Registrations.statesTold {calls : List (List Event × Except Error Outcome)}
    (h : Registrations c calls c') (hrest : c.state ≠ .registering) :
    StatesTold c.config c.state calls c'.state := by
  -- a registration starts from rest, because the one before it left the client at an end
  induction h with
  | nil c => exact ⟨by simp, rfl, .singleton _⟩
  | @cons c c' last turns events found calls hattempt hcalls ih =>
    obtain ⟨hconfig, hend, htold⟩ := attempt_states hrest hattempt
    have hlater := ih hend.ended.ne_registering
    rw [hconfig] at hlater
    refine ⟨?_, ?_, ?_⟩
    · intro events' found' hmem
      rcases List.mem_cons.mp hmem with hfirst | hmem
      · obtain ⟨rfl, rfl⟩ := Prod.mk.inj hfirst
        exact ⟨c'.state, hend, htold⟩
      · exact hlater.each events' found' hmem
    · have hlast : (told ((events, found) :: calls)).getLastD c.state =
          (told calls).getLastD c'.state := by
        rw [told_cons]
        rcases htold with ⟨-, hentered⟩ | ⟨-, hentered⟩
        · simp only [hentered, List.cons_append, List.nil_append, List.getLastD_cons]
        · simp only [hentered, List.cons_append, List.nil_append, List.getLastD_cons]
      rw [hlast]
      exact hlater.state
    · rw [told_cons]
      exact chain_attempt hrest hattempt hlater.chain

/-- A client is made of a valid configuration and a service that speaks its
protocol. -/
theorem new_eq_ok_iff {mechanism : Mechanism} {spoken : Protocol} :
    Client.new config mechanism spoken = .ok c ↔
      config.Valid ∧ spoken = config.protocol ∧ c = ⟨config, mechanism, .notStarted⟩ := by
  rw [← Config.validate_eq_ok_iff]
  unfold Client.new
  cases hvalid : config.validate with
  | error error => simp [Bind.bind, Except.bind]
  | ok _ =>
    by_cases hspoken : spoken = config.protocol
    · simp [hspoken, Bind.bind, Except.bind, pure, Except.pure, eq_comm]
    · simp [hspoken, Bind.bind, Except.bind, throw, throwThe, MonadExceptOf.throw]

/-- However often a client is registered and whatever it is answered, what is told
of its states is told in this way. -/
theorem states_told_of_registrations {mechanism : Mechanism} {spoken : Protocol}
    {calls : List (List Event × Except Error Outcome)}
    (hnew : Client.new config mechanism spoken = .ok c) (h : Registrations c calls c') :
    StatesTold config .notStarted calls c'.state := by
  obtain ⟨-, -, rfl⟩ := new_eq_ok_iff.mp hnew
  exact h.statesTold nofun

def Progress.isFinished : Progress → Bool
  | .finished _ => true
  | .polling _ => false

theorem exists_run_of_follow (answer : (q : Query) → q.Answer) {p : Program (Progress × Client)}
    {states : List State} (hfinished : (p.follow answer).2.1.isFinished = true)
    (hclient : (p.follow answer).2.2 = c) (hstates : entered (p.follow answer).1 = states) :
    ∃ events found, Runs p events (.finished found, c) ∧ entered events = states := by
  have hrun := runs_follow answer p
  generalize p.follow answer = run at hfinished hclient hstates hrun
  obtain ⟨events, progress, c'⟩ := run
  obtain rfl : c' = c := hclient
  cases progress with
  | finished found => exact ⟨events, found, hrun, hstates⟩
  | polling p => exact nomatch hfinished

/-- Two registrations that the service takes its time for. -/
theorem states_told_of_two_registrations :
    ∃ (config : Config) (c c' : Client) (calls : List (List Event × Except Error Outcome)),
      Client.new config .symmetricKey .https = .ok c ∧ Registrations c calls c' ∧
      told calls = [.registering, .assigning, .assigned, .registering, .assigning, .assigned] ∧
      StatesTold config .notStarted calls c'.state := by
  let config : Config := .ofScope "0ne00000001" .https
  have hvalid : config.Valid := Config.valid_ofScope (by decide +kernel) .https
  have hnew : Client.new config .symmetricKey .https = .ok ⟨config, .symmetricKey, .notStarted⟩ :=
    new_eq_ok_iff.mpr ⟨hvalid, rfl, rfl⟩
  obtain ⟨events, found, hfirst, htold⟩ :
      ∃ events found, Runs (attempt ⟨config, .symmetricKey, .notStarted⟩ 1) events
          (.finished found, ⟨config, .symmetricKey, .assigned⟩) ∧
        entered events = [.registering, .assigning, .assigned] :=
    exists_run_of_follow granted (by decide +kernel) (by decide +kernel)
      (by decide +kernel)
  obtain ⟨events', found', hsecond, htold'⟩ :
      ∃ events found, Runs (attempt ⟨config, .symmetricKey, .assigned⟩ 1) events
          (.finished found, ⟨config, .symmetricKey, .assigned⟩) ∧
        entered events = [.registering, .assigning, .assigned] :=
    exists_run_of_follow granted (by decide +kernel) (by decide +kernel)
      (by decide +kernel)
  have hcalls := Registrations.cons hfirst (.cons hsecond (.nil _))
  refine ⟨config, _, _, _, hnew, hcalls, ?_, states_told_of_registrations hnew hcalls⟩
  simp [told, htold, htold']

end Enrollment.Client
