import Enrollment.Client
import Enrollment.Proofs.ExchangeHistory
import Enrollment.Proofs.Trace
namespace Enrollment

/-!
# Exchanges do not disturb one another

An exchange takes its reply from its own callback and from nothing else, and what
is done to a callback after its exchange has returned is lost: no later exchange,
and no attempt whose calls are carried by these exchanges, can tell.
-/

open Program

variable {history before rest : List Happening} {board : Board}

/-! ### Where a reply comes from -/

theorem finish_of_mem_returns {r : Return} (h : r ∈ board.returns history) :
    ∃ before refusal issued rest,
      history = before ++ .finish r.exchange refusal issued r.deadline :: rest ∧
      r.reply = (board.after before).reply r.exchange refusal issued r.deadline := by
  induction history generalizing board with
  | nil => exact nomatch h
  | cons happening rest ih =>
    cases happening with
    | finish exchange refusal issued deadline =>
      rcases List.mem_cons.mp h with rfl | hrest
      · exact ⟨[], refusal, issued, rest, rfl, rfl⟩
      · obtain ⟨before, refusal', issued', rest', rfl, hreply⟩ := ih hrest
        exact ⟨_ :: before, refusal', issued', rest', rfl, hreply⟩
    | _ =>
      obtain ⟨before, refusal', issued', rest', rfl, hreply⟩ := ih h
      exact ⟨_ :: before, refusal', issued', rest', rfl, hreply⟩

theorem first_use {exchange : Nat} {time : Duration} {u : Use}
    (h : (usesOf exchange history).head? = some (time, u)) :
    ∃ before rest, history = before ++ .use exchange time u :: rest ∧
      usesOf exchange before = [] := by
  induction history with
  | nil => exact nomatch h
  | cons happening rest ih =>
    cases happening with
    | use other time' u' =>
      rcases Nat.decEq other exchange with hne | rfl
      · rw [usesOf_use_of_ne hne] at h
        obtain ⟨before, rest', rfl, hnone⟩ := ih h
        refine ⟨.use other time' u' :: before, rest', rfl, ?_⟩
        rw [usesOf_use_of_ne hne]
        exact hnone
      · rw [usesOf_use_self] at h
        obtain ⟨rfl, rfl⟩ := Prod.mk.inj (Option.some.inj h)
        exact ⟨[], rest, rfl, rfl⟩
    | _ =>
      obtain ⟨before, rest', rfl, hnone⟩ := ih h
      exact ⟨_ :: before, rest', rfl, hnone⟩

theorem settled_delivered {refusal : Option Error} {issued deadline : Duration}
    {used : Option (Duration × Use)} {delivery : Delivery}
    (h : settled refusal issued deadline used = .accepted (.delivered delivery)) :
    refusal = none ∧ ∃ time, used = some (time, .deliver delivery) ∧
      time ≤ Board.cutoff issued deadline := by
  cases refusal with
  | some error => exact nomatch h
  | none =>
    cases used with
    | none => exact nomatch h
    | some use =>
      obtain ⟨time, u⟩ := use
      simp only [settled] at h
      split at h
      · rename_i htime
        cases u with
        | deliver delivery' =>
          obtain rfl : delivery' = delivery := by simpa [Use.arrival] using h
          exact ⟨rfl, time, rfl, htime⟩
        | drop => simp [Use.arrival] at h
      · simp at h

/-- A delivery was made by the exchange's own callback, was the first use of it,
and was made before the exchange returned. -/
theorem own_of_delivered (hproper : Proper 0 [] history) {r : Return}
    (hr : r ∈ Board.empty.returns history) {delivery : Delivery}
    (hreply : r.reply = .accepted (.delivered delivery)) :
    ∃ before time between issued rest,
      history = before ++ .use r.exchange time (.deliver delivery) :: between ++
        .finish r.exchange none issued r.deadline :: rest ∧
      usesOf r.exchange before = [] ∧ time ≤ Board.cutoff issued r.deadline := by
  obtain ⟨before, refusal, issued, rest, rfl, hfound⟩ := finish_of_mem_returns hr
  rw [hreply, reply_eq_settled, usage?_after_empty hproper.of_append] at hfound
  obtain ⟨rfl, time, hfirst, htime⟩ := settled_delivered hfound.symm
  obtain ⟨unused, between, rfl, hnone⟩ := first_use hfirst
  exact ⟨unused, time, between, issued, rest, rfl, hnone, htime⟩

/-! ### Calls that these exchanges carry -/

def sends (events : List Event) : List (Duration × Reply) :=
  events.filterMap fun
    | ⟨.send _ deadline, reply⟩ => some (deadline, reply)
    | _ => none

/-- Each call was answered by what the next exchange returned. -/
def Carried (history : List Happening) (events : List Event) : Prop :=
  sends events = (Board.empty.returns history).map fun r ↦ (r.deadline, r.reply)

/-- As far as two traces are the same, the device, the clocks and the sleeps answer
the same question in the same way. -/
def SameSurroundings (events events' : List Event) : Prop :=
  ∀ (before : List Event) (query : Query) (answer answer' : query.Answer)
    (rest rest' : List Event), (∀ call deadline, query ≠ .send call deadline) →
    events = before ++ ⟨query, answer⟩ :: rest → events' = before ++ ⟨query, answer'⟩ :: rest' →
    answer = answer'

/-- Two runs of which no question is answered differently are the same. -/
theorem runs_eq_of_agree {α : Type} {p : Program α} {events events' : List Event} {a b : α}
    (h : Runs p events a) (h' : Runs p events' b)
    (hagree : ∀ (before : List Event) (query : Query) (answer answer' : query.Answer)
      (rest rest' : List Event), events = before ++ ⟨query, answer⟩ :: rest →
      events' = before ++ ⟨query, answer'⟩ :: rest' → answer = answer') :
    events = events' ∧ a = b := by
  induction h generalizing events' with
  | done a =>
    obtain ⟨rfl, rfl⟩ := runs_done_iff.mp h'
    exact ⟨rfl, rfl⟩
  | @ask query next answer rest a hrest ih =>
    obtain ⟨answer', rest', rfl, hrest'⟩ := runs_ask_iff.mp h'
    obtain rfl := hagree [] query answer answer' rest rest' rfl rfl
    obtain ⟨rfl, rfl⟩ := ih hrest' fun before query' x x' more more' hevents hevents' ↦
      hagree (⟨query, answer⟩ :: before) query' x x' more more' (congrArg _ hevents)
        (congrArg _ hevents')
    exact ⟨rfl, rfl⟩

theorem sends_append (events events' : List Event) :
    sends (events ++ events') = sends events ++ sends events' :=
  List.filterMap_append

/-- A program cannot tell one list of replies from the same list. -/
theorem runs_eq_of_sends {α : Type} {p : Program α} {events events' : List Event} {a b : α}
    (h : Runs p events a) (h' : Runs p events' b) (hsends : sends events = sends events')
    (hsame : SameSurroundings events events') : events = events' ∧ a = b := by
  apply runs_eq_of_agree h h'
  rintro before query answer answer' rest rest' rfl rfl
  by_cases hsend : ∃ call deadline, query = .send call deadline
  · obtain ⟨call, deadline, rfl⟩ := hsend
    rw [sends_append, sends_append] at hsends
    have htail := List.append_cancel_left hsends
    exact (Prod.mk.inj (List.cons.inj htail).1).2
  · refine hsame before query answer answer' rest rest' ?_ rfl rfl
    rintro call deadline rfl
    exact hsend ⟨call, deadline, rfl⟩

/-- Attempts one after another, each of up to so many turns. -/
def Client.attempts (c : Client) : List Nat → Program (List Client.Progress)
  | [] => return []
  | turns :: more => do
    let (progress, c) ← c.attempt turns
    return progress :: (← c.attempts more)

/-- What the exchanges of a history have to do with one another, and with late uses
of their callbacks: nothing. -/
structure Isolated (history : List Happening) : Prop where
  /-- An exchange returns what its own issue and its own callback say by then. -/
  determined : ∀ before exchange refusal issued deadline rest,
    history = before ++ .finish exchange refusal issued deadline :: rest →
    Board.empty.returns history = Board.empty.returns before ++
      ⟨exchange, deadline, settled refusal issued deadline (usesOf exchange before).head?⟩ ::
        (Board.empty.after before).returns rest
  own : ∀ r ∈ Board.empty.returns history, ∀ delivery,
    r.reply = .accepted (.delivered delivery) → ∃ before time between issued rest,
      history = before ++ .use r.exchange time (.deliver delivery) :: between ++
        .finish r.exchange none issued r.deadline :: rest ∧
      usesOf r.exchange before = [] ∧ time ≤ Board.cutoff issued r.deadline
  once : ((Board.empty.returns history).map Return.exchange).Nodup
  /-- Histories that differ in late uses alone return the same. -/
  late : ∀ other, Proper 0 [] other → timely [] other = timely [] history →
    Board.empty.returns other = Board.empty.returns history
  /-- No attempt can tell such histories apart. -/
  attempts : ∀ other, Proper 0 [] other → timely [] other = timely [] history →
    ∀ (c : Client) (turns : List Nat) (events events' : List Event)
      (found found' : List Client.Progress),
      Runs (c.attempts turns) events found → Carried history events →
      Runs (c.attempts turns) events' found' → Carried other events' →
      SameSurroundings events events' → events = events' ∧ found = found'

theorem returns_of_timely_eq {other : List Happening} (h : Proper 0 [] history)
    (hother : Proper 0 [] other) (heq : timely [] other = timely [] history) :
    Board.empty.returns other = Board.empty.returns history := by
  have hagree : Agree [] Board.empty Board.empty := fun _ _ ↦ rfl
  rw [← returns_timely hother rfl rfl hagree, ← returns_timely h rfl rfl hagree, heq]

/-- In every interleaving, exchanges are isolated. -/
theorem exchanges_isolated (h : Proper 0 [] history) : Isolated history where
  determined := by
    rintro before exchange refusal issued deadline rest rfl
    exact returns_finish h.of_append exchange refusal issued deadline rest
  own := fun r hr delivery hreply ↦ own_of_delivered h hr hreply
  once := (h.nodup_returns Board.empty).1
  late := fun other hother heq ↦ returns_of_timely_eq h hother heq
  attempts := by
    intro other hother heq c turns events events' found found' hrun hcarried hrun' hcarried' hsame
    have hreturns := returns_of_timely_eq h hother heq
    have hsends : sends events = sends events' := by
      rw [hcarried, hcarried', hreturns]
    exact runs_eq_of_sends hrun hrun' hsends hsame

/-! ### Every trace is carried by some exchanges -/

/-- The use, if any, after which a wait finds this. -/
def Arrival.use? : Arrival → Option Use
  | .delivered delivery => some (.deliver delivery)
  | .dropped => some .drop
  | .nothing => none

/-- An exchange that answers a call in this way, begun with so many before it. -/
def exchangeFor (exchange : Nat) (deadline : Duration) : Reply → List Happening
  | .rejected error => [.start, .finish exchange (some error) deadline deadline]
  | .accepted arrival =>
    .start :: (arrival.use?.toList.map (.use exchange deadline) ++
      [.finish exchange none deadline deadline])

def historyFor : Nat → List (Duration × Reply) → List Happening
  | _, [] => []
  | exchange, (deadline, reply) :: rest =>
    exchangeFor exchange deadline reply ++ historyFor (exchange + 1) rest

theorem proper_historyFor (sent : List (Duration × Reply)) {exchange : Nat} {returned : List Nat}
    (hreturned : ∀ other ∈ returned, other < exchange) :
    Proper exchange returned (historyFor exchange sent) := by
  induction sent generalizing exchange returned with
  | nil => trivial
  | cons first sent ih =>
    obtain ⟨deadline, reply⟩ := first
    have hnew : exchange ∉ returned := fun hmem ↦ Nat.lt_irrefl _ (hreturned _ hmem)
    have hrest : Proper (exchange + 1) (exchange :: returned) (historyFor (exchange + 1) sent) := by
      apply ih
      intro other hother
      rcases List.mem_cons.mp hother with rfl | hother
      · exact Nat.lt_succ_self _
      · exact Nat.lt_succ_of_lt (hreturned other hother)
    have hfinish : exchange < exchange + 1 ∧ exchange ∉ returned ∧
        Proper (exchange + 1) (exchange :: returned) (historyFor (exchange + 1) sent) :=
      ⟨Nat.lt_succ_self _, hnew, hrest⟩
    cases reply with
    | rejected error => exact hfinish
    | accepted arrival =>
      cases arrival with
      | nothing => exact hfinish
      | _ => exact ⟨Nat.lt_succ_self _, hfinish⟩

/-- A callback that is used in time is answered by what it was used for. -/
theorem reply_start_use {board : Board} {exchange : Nat} (hboard : board.slots.length = exchange)
    (deadline : Duration) (u : Use) :
    (board.start.use exchange deadline u).reply exchange none deadline deadline =
      .accepted u.arrival := by
  have hstarted : exchange < board.start.slots.length := by
    rw [Board.length_start, hboard]
    exact Nat.lt_succ_self _
  have hintime : deadline ≤ Board.cutoff deadline deadline := by
    rw [Board.cutoff, Duration.le_def, Duration.nanos_max]
    omega
  rw [reply_eq_settled, Board.usage?_use_self board.start hstarted,
    Board.usage?_start_self hboard]
  exact congrArg Reply.accepted (if_pos hintime)

theorem returns_exchangeFor {board : Board} {exchange : Nat}
    (hboard : board.slots.length = exchange) (deadline : Duration) (reply : Reply) :
    board.returns (exchangeFor exchange deadline reply) = [⟨exchange, deadline, reply⟩] ∧
      (board.after (exchangeFor exchange deadline reply)).slots.length = exchange + 1 := by
  have hstart : board.start.slots.length = exchange + 1 := by rw [Board.length_start, hboard]
  have huse (u : Use) : (board.start.use exchange deadline u).slots.length = exchange + 1 := by
    rw [Board.length_use, hstart]
  have hfinish {found reply : Reply} (h : found = reply) :
      [(⟨exchange, deadline, found⟩ : Return)] = [⟨exchange, deadline, reply⟩] := by rw [h]
  cases reply with
  | rejected error => exact ⟨rfl, hstart⟩
  | accepted arrival =>
    cases arrival with
    | nothing =>
      have hnothing : board.start.reply exchange none deadline deadline = .accepted .nothing := by
        rw [reply_eq_settled, Board.usage?_start_self hboard]
        rfl
      exact ⟨hfinish hnothing, hstart⟩
    | dropped => exact ⟨hfinish (reply_start_use hboard deadline .drop), huse .drop⟩
    | delivered delivery =>
      exact ⟨hfinish (reply_start_use hboard deadline (.deliver delivery)),
        huse (.deliver delivery)⟩

theorem returns_historyFor (sent : List (Duration × Reply)) {exchange : Nat} {board : Board}
    (hboard : board.slots.length = exchange) :
    (board.returns (historyFor exchange sent)).map (fun r ↦ (r.deadline, r.reply)) = sent := by
  induction sent generalizing exchange board with
  | nil => rfl
  | cons first sent ih =>
    obtain ⟨deadline, reply⟩ := first
    obtain ⟨hreturns, hlength⟩ := returns_exchangeFor hboard deadline reply
    rw [historyFor, Board.returns_append, List.map_append, hreturns, ih hlength]
    rfl

theorem exists_carried (events : List Event) :
    ∃ history, Proper 0 [] history ∧ Carried history events :=
  ⟨historyFor 0 (sends events), proper_historyFor _ nofun, (returns_historyFor _ rfl).symm⟩

/-- The first exchange times out; its reply comes while the second one waits, and
before that one's own. -/
def lateReply : List Happening :=
  [.start, .finish 0 none .zero (.ofSecs 1), .start,
    .use 0 (.ofSecs 2) (.deliver (.ok (some [1]))), .use 1 (.ofSecs 3) (.deliver (.ok (some [2]))),
    .finish 1 none (.ofSecs 1) (.ofSecs 5)]

/-- Two attempts of one poll each, whatever late use is made of their callbacks. -/
theorem exchanges_isolated_lateReply :
    (Proper 0 [] lateReply ∧ Isolated lateReply ∧
      (Board.empty.returns lateReply).map Return.reply =
        [.accepted .nothing, .accepted (.delivered (.ok (some [2])))]) ∧
    ∃ (c : Client) (events : List Event) (found : List Client.Progress)
      (history : List Happening), Runs (c.attempts [1, 1]) events found ∧
      (calls events).map Call.operation = [.authenticate, .getStatus, .authenticate, .getStatus] ∧
      Proper 0 [] history ∧ Carried history events ∧
      ∀ before rest, history = before ++ rest → ∀ r ∈ Board.empty.returns before, ∀ time u,
        Carried (before ++ .use r.exchange time u :: rest) events ∧
        ∀ events' found', Runs (c.attempts [1, 1]) events' found' →
          Carried (before ++ .use r.exchange time u :: rest) events' →
          SameSurroundings events events' → events = events' ∧ found = found' := by
  have hlateReply : Proper 0 [] lateReply := by simp [lateReply, Proper]
  let c : Client := ⟨.ofScope "0ne00000001" .https, .x509, .notStarted⟩
  have hrun := runs_follow granted (c.attempts [1, 1])
  have hcalls : (calls ((c.attempts [1, 1]).follow granted).1).map Call.operation =
      [.authenticate, .getStatus, .authenticate, .getStatus] := by
    decide +kernel
  obtain ⟨history, hproper, hcarried⟩ := exists_carried ((c.attempts [1, 1]).follow granted).1
  have hisolated := exchanges_isolated hproper
  refine ⟨⟨hlateReply, exchanges_isolated hlateReply, rfl⟩, c, _, _, history, hrun, hcalls,
    hproper, hcarried, ?_⟩
  rintro before rest rfl r hr time u
  have hreturned := List.mem_map_of_mem (f := Return.exchange) hr
  obtain ⟨hlate, htimely⟩ :=
    hproper.insert_late (List.forall_mem_nil _) (.inr hreturned) time u
  refine ⟨?_, fun events' found' hrun' hcarried' hsame ↦
    hisolated.attempts _ hlate htimely c [1, 1] _ events' _ found' hrun hcarried hrun' hcarried'
      hsame⟩
  rw [Carried, hisolated.late _ hlate htimely]
  exact hcarried

end Enrollment
