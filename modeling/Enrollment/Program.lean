import Enrollment.Exchange
namespace Enrollment

/-!
# Programs that ask

An attempt is a tree of questions to its surroundings: the device, the clocks,
the service, and whoever watches the client's state.  `Program.run` answers the
questions in a monad of one's choice; `Runs` is the relation between a program,
the questions and answers of one run, and what the run comes to.
-/

/-! ### Questions

The engine holds no key.  Whatever it needs of the device's identity it asks for, and a
device may fail to answer, or answer differently the next time.
-/

inductive DeviceQuery
  | registrationId
  | credential
  | endorsementKey
  | storageRootKey
  /-- Sign with the key imported before. -/
  | sign (data : Bytes)
  /-- Install the decoded key that the service handed out. -/
  | importKey (key : Bytes)
deriving DecidableEq

namespace DeviceQuery

abbrev Answer : DeviceQuery → Type
  | registrationId => Except Error String
  | credential => Except Error (Option Credential)
  | endorsementKey => Except Error Bytes
  | storageRootKey => Except Error Bytes
  | sign _ => Except Error Bytes
  | importKey _ => Except Error Unit

end DeviceQuery

inductive Query
  | device (query : DeviceQuery)
  /-- The time on a clock that never goes back. -/
  | clock
  /-- The time since the epoch, if it is not still to come. -/
  | epoch
  | sleep (duration : Duration)
  /-- Send a call and wait for its callback until the deadline. -/
  | send (call : Call) (deadline : Duration)
  /-- The client is now in this state; tell whoever watches it. -/
  | enter (state : State)
deriving DecidableEq

abbrev Query.Answer : Query → Type
  | device query => query.Answer
  | clock => Duration
  | epoch => Option Duration
  | sleep _ => Unit
  | send _ _ => Reply
  | enter _ => Unit

inductive Program (α : Type) : Type
  | done (a : α)
  | ask (query : Query) (next : query.Answer → Program α)

namespace Program

variable {α β γ : Type}

def bind : Program α → (α → Program β) → Program β
  | done a, f => f a
  | ask q next, f => ask q fun answer ↦ (next answer).bind f

instance : Monad Program where
  pure := done
  bind := bind

theorem pure_eq (a : α) : (pure a : Program α) = done a := rfl
theorem bind_eq (p : Program α) (f : α → Program β) : p >>= f = p.bind f := rfl

@[simp] theorem done_bind (a : α) (f : α → Program β) : (done a).bind f = f a := rfl

@[simp] theorem ask_bind (q : Query) (next : q.Answer → Program α) (f : α → Program β) :
    (ask q next).bind f = ask q fun answer ↦ (next answer).bind f := rfl

theorem bind_done (p : Program α) : p.bind done = p := by
  induction p with
  | done a => rfl
  | ask q next ih => simp [ih]

theorem bind_assoc (p : Program α) (f : α → Program β) (g : β → Program γ) :
    (p.bind f).bind g = p.bind fun a ↦ (f a).bind g := by
  induction p with
  | done a => rfl
  | ask q next ih => simp [ih]

instance : LawfulMonad Program :=
  LawfulMonad.mk' Program
    (fun p ↦ bind_done p)
    (fun _ _ ↦ rfl)
    (fun p f g ↦ bind_assoc p f g)

def query (q : Query) : Program q.Answer := ask q done

def run {m : Type → Type} [Monad m] (answer : (q : Query) → m q.Answer) : Program α → m α
  | done a => pure a
  | ask q next => do (next (← answer q)).run answer

/-! ### Runs -/

structure Event where
  query : Query
  answer : query.Answer

/-- `Runs p events a`: with these answers, in their order, `p` comes to `a`. -/
inductive Runs : Program α → List Event → α → Prop
  | done (a : α) : Runs (done a) [] a
  | ask (q : Query) {next : q.Answer → Program α} (answer : q.Answer) {events : List Event} {a : α}
    (h : Runs (next answer) events a) : Runs (ask q next) (⟨q, answer⟩ :: events) a

theorem runs_done_iff {a b : α} {events : List Event} :
    Runs (done a) events b ↔ events = [] ∧ b = a := by
  constructor
  · rintro ⟨⟩
    exact ⟨rfl, rfl⟩
  · rintro ⟨rfl, rfl⟩
    exact .done _

theorem runs_ask_iff {q : Query} {next : q.Answer → Program α} {events : List Event} {a : α} :
    Runs (ask q next) events a ↔
      ∃ answer rest, events = ⟨q, answer⟩ :: rest ∧ Runs (next answer) rest a := by
  constructor
  · intro h
    rcases h with _ | ⟨_, answer, h⟩
    exact ⟨answer, _, rfl, h⟩
  · rintro ⟨answer, rest, rfl, h⟩
    exact .ask q answer h

theorem runs_bind_iff {p : Program α} {f : α → Program β} {events : List Event} {b : β} :
    Runs (p.bind f) events b ↔
      ∃ before after a, events = before ++ after ∧ Runs p before a ∧ Runs (f a) after b := by
  constructor
  · intro h
    induction p generalizing events with
    | done a => exact ⟨[], events, a, rfl, .done a, h⟩
    | ask q next ih =>
      rcases h with _ | ⟨_, answer, h⟩
      obtain ⟨before, after, a, rfl, hp, hf⟩ := ih answer h
      exact ⟨_ :: before, after, a, rfl, .ask q answer hp, hf⟩
  · rintro ⟨before, after, a, rfl, hp, hf⟩
    induction hp with
    | done a => exact hf
    | ask q answer _ ih => exact .ask q answer (ih hf)

end Program

/-! ### Exchanges -/

/-- Sends a call and waits for its answer; nothing is sent if the wait could not
end at a point in time. -/
def exchange (timeout : Duration) (call : Call) : Program (Except Error Bytes) := do
  match deadline? (← Program.query .clock) timeout with
  | none => return .error (.client (.longTimeout call.operation timeout))
  | some deadline =>
    let reply ← Program.query (.send call deadline)
    return reply.body call.operation timeout

end Enrollment
