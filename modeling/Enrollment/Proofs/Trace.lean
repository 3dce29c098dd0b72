import Enrollment.Program
namespace Enrollment

/-!
# Traces

A trace is the list of questions a program asked, each with the answer it got.
Of a trace one may look at the topics of its questions, at the calls that went
out to the service, and at the states the client entered.
-/

/-- What a question is about, without what it says. -/
inductive Topic
  | registrationId
  | credential
  | endorsementKey
  | storageRootKey
  | sign
  | importKey
  | clock
  | epoch
  | sleep
  | call (operation : Operation)
  | enter
deriving DecidableEq

def DeviceQuery.topic : DeviceQuery → Topic
  | registrationId => .registrationId
  | credential => .credential
  | endorsementKey => .endorsementKey
  | storageRootKey => .storageRootKey
  | sign _ => .sign
  | importKey _ => .importKey

def Query.topic : Query → Topic
  | device query => query.topic
  | clock => .clock
  | epoch => .epoch
  | sleep _ => .sleep
  | send call _ => .call call.operation
  | enter _ => .enter

def Query.call? : Query → Option Call
  | send call _ => some call
  | _ => none

def Query.entered? : Query → Option State
  | enter state => some state
  | _ => none

namespace Program

def topics (events : List Event) : List Topic :=
  events.map fun e ↦ e.query.topic

def calls (events : List Event) : List Call :=
  events.filterMap fun e ↦ e.query.call?

def entered (events : List Event) : List State :=
  events.filterMap fun e ↦ e.query.entered?

/-- The questions that were asked of the device, the clocks and the service. -/
def asked (events : List Event) : List Event :=
  events.filter fun e ↦ e.query.entered?.isNone

@[simp] theorem topics_append (before after : List Event) :
    topics (before ++ after) = topics before ++ topics after :=
  List.map_append

theorem topics_cons (e : Event) (events : List Event) :
    topics (e :: events) = e.query.topic :: topics events := rfl

@[simp] theorem calls_append (before after : List Event) :
    calls (before ++ after) = calls before ++ calls after :=
  List.filterMap_append

@[simp] theorem calls_nil : calls [] = [] := rfl

@[simp] theorem calls_send (call : Call) (deadline : Duration) (reply : Reply)
    (events : List Event) : calls (⟨.send call deadline, reply⟩ :: events) = call :: calls events :=
  rfl

@[simp] theorem calls_device (query : DeviceQuery) (answer : query.Answer) (events : List Event) :
    calls (⟨.device query, answer⟩ :: events) = calls events := rfl

@[simp] theorem calls_clock (now : Duration) (events : List Event) :
    calls (⟨.clock, now⟩ :: events) = calls events := rfl

@[simp] theorem entered_append (before after : List Event) :
    entered (before ++ after) = entered before ++ entered after :=
  List.filterMap_append

@[simp] theorem asked_append (before after : List Event) :
    asked (before ++ after) = asked before ++ asked after :=
  List.filter_append before after

theorem topic_of_entered {query : Query} {state : State} (h : query.entered? = some state) :
    query.topic = .enter := by
  cases query with
  | enter state => rfl
  | _ => exact nomatch h

theorem entered?_eq_none_of_topics {events : List Event} (h : .enter ∉ topics events) :
    ∀ e ∈ events, e.query.entered? = none := by
  intro e hmem
  cases hentered : e.query.entered? with
  | none => rfl
  | some state =>
    have htopic : .enter ∈ topics events :=
      List.mem_map.mpr ⟨e, hmem, topic_of_entered hentered⟩
    exact absurd htopic h

theorem asked_eq_self {events : List Event} (h : .enter ∉ topics events) :
    asked events = events := by
  apply List.filter_eq_self.mpr
  intro e hmem
  rw [entered?_eq_none_of_topics h e hmem]
  rfl

theorem entered_eq_nil {events : List Event} (h : .enter ∉ topics events) :
    entered events = [] :=
  List.filterMap_eq_nil_iff.mpr (entered?_eq_none_of_topics h)

theorem mem_calls_iff {events : List Event} {call : Call} :
    call ∈ calls events ↔ ∃ deadline reply, ⟨.send call deadline, reply⟩ ∈ events := by
  constructor
  · intro h
    obtain ⟨⟨query, answer⟩, hmem, hcall⟩ := List.mem_filterMap.mp h
    cases query with
    | send other deadline =>
      obtain rfl : other = call := Option.some.inj hcall
      exact ⟨deadline, answer, hmem⟩
    | _ => simp [Query.call?] at hcall
  · rintro ⟨deadline, reply, h⟩
    exact List.mem_filterMap.mpr ⟨_, h, rfl⟩

theorem topic_mem {events : List Event} {e : Event} (h : e ∈ events) :
    e.query.topic ∈ topics events :=
  List.mem_map.mpr ⟨e, h, rfl⟩

/-! ### Runs of the smallest programs -/

variable {α : Type}

theorem runs_query_iff {q : Query} {events : List Event} {answer : q.Answer} :
    Runs (query q) events answer ↔ events = [⟨q, answer⟩] := by
  unfold query
  rw [runs_ask_iff]
  constructor
  · rintro ⟨given, rest, rfl, h⟩
    obtain ⟨rfl, rfl⟩ := runs_done_iff.mp h
    rfl
  · rintro rfl
    exact ⟨answer, [], rfl, .done answer⟩

theorem runs_query_bind_iff {q : Query} {f : q.Answer → Program α} {events : List Event} {a : α} :
    Runs (query q >>= f) events a ↔
      ∃ answer rest, events = ⟨q, answer⟩ :: rest ∧ Runs (f answer) rest a :=
  runs_ask_iff

theorem runs_pure_iff {a b : α} {events : List Event} :
    Runs (pure a) events b ↔ events = [] ∧ b = a :=
  runs_done_iff

/-- A program comes to one result with the same answers; what it is told when a
state is entered is no answer. -/
theorem runs_unique {p : Program α} {events events' : List Event} {a b : α} (h : Runs p events a)
    (h' : Runs p events' b) (hasked : asked events = asked events') : b = a := by
  induction h generalizing events' with
  | done a => exact (runs_done_iff.mp h').2
  | ask q answer hrest ih =>
    obtain ⟨answer', rest', rfl, hrest'⟩ := runs_ask_iff.mp h'
    cases hq : q.entered? with
    | some state =>
      -- the answer to an entered state is the unit, whether or not it is compared
      cases q with
      | enter state => exact ih hrest' hasked
      | _ => exact nomatch hq
    | none =>
      simp only [asked, List.filter_cons, hq, Option.isNone_none, if_true, List.cons.injEq,
        Event.mk.injEq, heq_eq_eq, true_and] at hasked
      obtain ⟨rfl, hrests⟩ := hasked
      exact ih hrest' hrests

/-! ### Surroundings that answer a question always in the same way -/

/-- The questions a program asks of such surroundings, and what it comes to. -/
def follow (answer : (q : Query) → q.Answer) : Program α → List Event × α
  | done a => ([], a)
  | ask q next =>
    let (events, a) := (next (answer q)).follow answer
    (⟨q, answer q⟩ :: events, a)

theorem runs_follow (answer : (q : Query) → q.Answer) (p : Program α) :
    Runs p (p.follow answer).1 (p.follow answer).2 := by
  induction p with
  | done a => exact .done a
  | ask q next ih => exact .ask q (answer q) (ih (answer q))

theorem answer_of_mem_follow {answer : (q : Query) → q.Answer} {p : Program α} {e : Event}
    (h : e ∈ (p.follow answer).1) : e.answer = answer e.query := by
  induction p with
  | done a => simp [follow] at h
  | ask q next ih =>
    rcases List.mem_cons.mp h with rfl | hrest
    · rfl
    · exact ih (answer q) hrest

/-- The reply that says a device is assigned, and nothing else. -/
def assignedBody : Bytes := Bytes.ofText "\x7b\"status\":\"assigned\"\x7d"

/-- A device and a service that grant whatever is asked of them, at the first
moment of all clocks.  A registration takes them one question after its state. -/
def granted : (q : Query) → q.Answer
  | .device .registrationId => .ok "device"
  | .device .credential => .ok (some .serverAuthOnly)
  | .device .endorsementKey => .ok [1]
  | .device .storageRootKey => .ok [2]
  | .device (.sign _) => .ok [3]
  | .device (.importKey _) => .ok ()
  | .clock => .zero
  | .epoch => some .zero
  | .sleep _ => ()
  | .send (.requestNonce ..) _ =>
    .accepted (.delivered (.ok (some (Bytes.ofText "\x7b\"authenticationKey\":\"AQID\"\x7d"))))
  | .send (.authenticate ..) _ =>
    .accepted (.delivered (.ok (some
      (Bytes.ofText "\x7b\"operationId\":\"first\",\"status\":\"assigning\"\x7d"))))
  | .send (.getStatus ..) _ => .accepted (.delivered (.ok (some assignedBody)))
  | .enter _ => ()

end Program

open Program

/-- An exchange looks at the clock and, if its wait can end at a point in time,
sends its call. -/
theorem runs_exchange_iff {timeout : Duration} {call : Call} {events : List Event}
    {result : Except Error Bytes} :
    Runs (exchange timeout call) events result ↔
      ∃ now, (deadline? now timeout = none ∧ events = [⟨.clock, now⟩] ∧
          result = .error (.client (.longTimeout call.operation timeout))) ∨
        ∃ deadline reply, deadline? now timeout = some deadline ∧
          events = [⟨.clock, now⟩, ⟨.send call deadline, reply⟩] ∧
          result = reply.body call.operation timeout := by
  unfold exchange
  rw [runs_query_bind_iff]
  constructor
  · rintro ⟨now, rest, rfl, h⟩
    refine ⟨now, ?_⟩
    cases hd : deadline? now timeout with
    | none =>
      left
      simp only [hd] at h
      obtain ⟨rfl, rfl⟩ := runs_pure_iff.mp h
      exact ⟨rfl, rfl, rfl⟩
    | some deadline =>
      right
      simp only [hd] at h
      obtain ⟨reply, rest, rfl, hreply⟩ := runs_query_bind_iff.mp h
      obtain ⟨rfl, rfl⟩ := runs_pure_iff.mp hreply
      exact ⟨deadline, reply, rfl, rfl, rfl⟩
  · rintro ⟨now, ⟨hd, rfl, rfl⟩ | ⟨deadline, reply, hd, rfl, rfl⟩⟩
    · refine ⟨now, [], rfl, ?_⟩
      simp only [hd]
      exact .done _
    · refine ⟨now, _, rfl, ?_⟩
      simp only [hd]
      exact .ask _ reply (.done _)

theorem follow_exchange (timeout : Duration) (call : Call) (answer : (q : Query) → q.Answer) :
    (exchange timeout call).follow answer =
      match deadline? (answer .clock) timeout with
      | none =>
        ([⟨.clock, answer .clock⟩], .error (.client (.longTimeout call.operation timeout)))
      | some deadline =>
        ([⟨.clock, answer .clock⟩, ⟨.send call deadline, answer (.send call deadline)⟩],
          (answer (.send call deadline)).body call.operation timeout) := by
  simp only [exchange, query, bind_eq, ask_bind, done_bind, follow]
  cases deadline? (answer .clock) timeout <;> rfl

end Enrollment
