import Enrollment.Proofs.Trace
import Enrollment.Session
namespace Enrollment.Session

/-!
# What a session asks

`s.Yields a events result b`: with these answers the session `s`, begun with the
authorization `a`, comes to `result` and leaves the authorization `b`.  Each step
has one lemma that says all it can do, and a sequence either ends with its first
part's error or goes on with what that part found.
-/

open Program

variable {α β : Type} {a b : Authorization} {events : List Event}

def Yields (s : Session α) (a : Authorization) (events : List Event) (result : Except Error α)
    (b : Authorization) : Prop :=
  Runs (s.run.run a) events (result, b)

theorem yields_ofResult_iff {result found : Except Error α} :
    (ofResult found).Yields a events result b ↔ events = [] ∧ result = found ∧ b = a := by
  simp only [Yields, run_ofResult, runs_done_iff, Prod.mk.injEq]

theorem yields_pure_iff {x : α} {result : Except Error α} :
    (pure x : Session α).Yields a events result b ↔ events = [] ∧ result = .ok x ∧ b = a := by
  simp only [Yields, run_pure, runs_done_iff, Prod.mk.injEq]

theorem yields_modify_iff {f : Authorization → Authorization} {result : Except Error Unit} :
    (modify f : Session Unit).Yields a events result b ↔
      events = [] ∧ result = .ok () ∧ b = f a := by
  simp only [Yields, run_modify, runs_done_iff, Prod.mk.injEq]

theorem yields_ofProgram_iff {p : Program (Except Error α)} {result : Except Error α} :
    (ofProgram p).Yields a events result b ↔ Runs p events result ∧ b = a := by
  simp only [Yields, run_ofProgram, runs_bind_iff, runs_done_iff, Prod.mk.injEq]
  constructor
  · rintro ⟨before, after, found, rfl, hp, rfl, rfl, rfl⟩
    exact ⟨by simpa using hp, rfl⟩
  · rintro ⟨hp, rfl⟩
    exact ⟨events, [], result, by simp, hp, rfl, rfl, rfl⟩

/-- A sequence ends with the error of its first part, or goes on with what that
part found and with the authorization it left. -/
theorem yields_bind_iff {s : Session α} {f : α → Session β} {result : Except Error β} :
    (s >>= f).Yields a events result b ↔
      (∃ error, s.Yields a events (.error error) b ∧ result = .error error) ∨
        ∃ x between before after, events = before ++ after ∧
          s.Yields a before (.ok x) between ∧ (f x).Yields between after result b := by
  simp only [Yields, run_bind, runs_bind_iff]
  constructor
  · rintro ⟨before, after, ⟨found, between⟩, rfl, hs, hf⟩
    cases found with
    | error error =>
      left
      obtain ⟨rfl, hpair⟩ := runs_done_iff.mp hf
      obtain ⟨rfl, rfl⟩ := Prod.mk.inj hpair
      exact ⟨error, by simpa using hs, rfl⟩
    | ok x => exact Or.inr ⟨x, between, before, after, rfl, hs, hf⟩
  · rintro (⟨error, hs, rfl⟩ | ⟨x, between, before, after, rfl, hs, hf⟩)
    · exact ⟨events, [], (.error error, b), by simp, hs, .done _⟩
    · exact ⟨before, after, (.ok x, between), rfl, hs, hf⟩

/-! ### Steps -/

theorem yields_registrationId_iff {result : Except Error String} :
    registrationId.Yields a events result b ↔
      events = [⟨.device .registrationId, result⟩] ∧ b = a := by
  rw [registrationId, yields_ofProgram_iff, runs_query_iff]

theorem yields_endorsementKey_iff {result : Except Error Bytes} :
    endorsementKey.Yields a events result b ↔
      events = [⟨.device .endorsementKey, result⟩] ∧ b = a := by
  rw [endorsementKey, yields_ofProgram_iff, runs_query_iff]

theorem yields_storageRootKey_iff {result : Except Error Bytes} :
    storageRootKey.Yields a events result b ↔
      events = [⟨.device .storageRootKey, result⟩] ∧ b = a := by
  rw [storageRootKey, yields_ofProgram_iff, runs_query_iff]

theorem yields_importKey_iff {key : Bytes} {result : Except Error Unit} :
    (importKey key).Yields a events result b ↔
      events = [⟨.device (.importKey key), result⟩] ∧ b = a := by
  rw [importKey, yields_ofProgram_iff, runs_query_iff]

/-- What a required part comes to: an empty one is an error of its own. -/
def checked (isEmpty : α → Bool) (error : Error) (answer : Except Error α) : Except Error α :=
  answer.bind fun found ↦ if isEmpty found then .error error else .ok found

theorem yields_required_iff {part : Session α} {isEmpty : α → Bool} {error : Error}
    {result : Except Error α} :
    (required part isEmpty error).Yields a events result b ↔
      ∃ answer, part.Yields a events answer b ∧ result = checked isEmpty error answer := by
  rw [required, yields_bind_iff]
  constructor
  · rintro (⟨e, hpart, rfl⟩ | ⟨found, between, before, after, rfl, hpart, hcheck⟩)
    · exact ⟨.error e, hpart, rfl⟩
    · obtain ⟨rfl, rfl, rfl⟩ := yields_ofResult_iff.mp hcheck
      exact ⟨.ok found, by simpa using hpart, rfl⟩
  · rintro ⟨answer, hpart, rfl⟩
    cases answer with
    | error e => exact Or.inl ⟨e, hpart, rfl⟩
    | ok found =>
      exact Or.inr ⟨found, b, events, [], by simp, hpart,
        yields_ofResult_iff.mpr ⟨rfl, rfl, rfl⟩⟩

theorem checked_eq_ok_iff {isEmpty : α → Bool} {error : Error} {answer : Except Error α} {x : α} :
    checked isEmpty error answer = .ok x ↔ answer = .ok x ∧ isEmpty x = false := by
  cases answer with
  | error e => simp [checked, Except.bind]
  | ok found =>
    by_cases h : isEmpty found = true
    · simp only [checked, Except.bind, h, if_true, reduceCtorEq, Except.ok.injEq, false_iff]
      rintro ⟨rfl, hx⟩
      simp [h] at hx
    · simp only [checked, Except.bind, h, Bool.false_eq_true, if_false, Except.ok.injEq]
      constructor
      · rintro rfl
        exact ⟨rfl, by simpa using h⟩
      · exact fun hx ↦ hx.1

/-- What follows a required part is begun only with a part that is not empty. -/
theorem yields_required_bind_iff {part : Session α} {isEmpty : α → Bool} {error : Error}
    {f : α → Session β} {result : Except Error β} :
    (required part isEmpty error >>= f).Yields a events result b ↔
      (∃ answer e, part.Yields a events answer b ∧ checked isEmpty error answer = .error e ∧
          result = .error e) ∨
        ∃ x between before after, events = before ++ after ∧
          part.Yields a before (.ok x) between ∧ isEmpty x = false ∧
          (f x).Yields between after result b := by
  rw [yields_bind_iff]
  simp only [yields_required_iff]
  constructor
  · rintro (⟨e, ⟨answer, hask, hcheck⟩, rfl⟩ | ⟨x, between, before, after, rfl, hask, hf⟩)
    · exact Or.inl ⟨answer, e, hask, hcheck.symm, rfl⟩
    · obtain ⟨answer, hpart, hcheck⟩ := hask
      obtain ⟨rfl, hx⟩ := checked_eq_ok_iff.mp hcheck.symm
      exact Or.inr ⟨x, between, before, after, rfl, hpart, hx, hf⟩
  · rintro (⟨answer, e, hask, hcheck, rfl⟩ | ⟨x, between, before, after, rfl, hask, hx, hf⟩)
    · exact Or.inl ⟨e, ⟨answer, hask, hcheck.symm⟩, rfl⟩
    · exact Or.inr ⟨x, between, before, after, rfl,
        ⟨.ok x, hask, (checked_eq_ok_iff.mpr ⟨rfl, hx⟩).symm⟩, hf⟩

def answered (timeout : Duration) (request : Call) (read : Bytes → Except Error α)
    (reply : Reply) : Except Error α :=
  (reply.body request.operation timeout).bind read

theorem answered_eq_ok_iff {timeout : Duration} {request : Call} {read : Bytes → Except Error α}
    {reply : Reply} {x : α} :
    answered timeout request read reply = .ok x ↔
      ∃ body, reply.body request.operation timeout = .ok body ∧ read body = .ok x := by
  unfold answered
  cases reply.body request.operation timeout with
  | error e => simp [Except.bind]
  | ok body => simp [Except.bind]

/-- A call as a program of two questions. -/
theorem run_call (timeout : Duration) (request : Call) (read : Bytes → Except Error α)
    (a : Authorization) :
    (call timeout request read).run.run a = .ask .clock fun now ↦
      match deadline? now timeout with
      | none => .done (.error (.client (.longTimeout request.operation timeout)), a)
      | some deadline =>
        .ask (.send request deadline) fun reply ↦
          .done (answered timeout request read reply, a) := by
  have hexchange : exchange timeout request = .ask .clock fun now ↦
      match deadline? now timeout with
      | none => .done (.error (.client (.longTimeout request.operation timeout)))
      | some deadline =>
        .ask (.send request deadline) fun reply ↦
          .done (reply.body request.operation timeout) := rfl
  rw [call, run_bind, run_ofProgram, hexchange]
  simp only [ask_bind]
  congr 1
  funext now
  cases deadline? now timeout with
  | none => rfl
  | some deadline =>
    simp only [ask_bind, done_bind, answered]
    congr 1
    funext reply
    cases reply.body request.operation timeout with
    | error error => rfl
    | ok body => rfl

theorem yields_call_runs_iff {timeout : Duration} {request : Call}
    {read : Bytes → Except Error α} {result : Except Error α} :
    (call timeout request read).Yields a events result b ↔
      ∃ body, Runs (exchange timeout request) events body ∧ b = a ∧ result = body.bind read := by
  rw [call, yields_bind_iff]
  constructor
  · rintro (⟨e, hex, rfl⟩ | ⟨body, between, before, after, rfl, hex, hresult⟩)
    · obtain ⟨hrun, rfl⟩ := yields_ofProgram_iff.mp hex
      exact ⟨.error e, hrun, rfl, rfl⟩
    · obtain ⟨hrun, rfl⟩ := yields_ofProgram_iff.mp hex
      obtain ⟨rfl, rfl, rfl⟩ := yields_ofResult_iff.mp hresult
      exact ⟨.ok body, by simpa using hrun, rfl, rfl⟩
  · rintro ⟨body, hrun, rfl, rfl⟩
    have hex : (ofProgram (exchange timeout request)).Yields b events body b :=
      yields_ofProgram_iff.mpr ⟨hrun, rfl⟩
    cases body with
    | error e => exact Or.inl ⟨e, hex, rfl⟩
    | ok body =>
      have hresult : (ofResult (read body)).Yields b [] (read body) b :=
        yields_ofResult_iff.mpr ⟨rfl, rfl, rfl⟩
      exact Or.inr ⟨body, b, events, [], by simp, hex, hresult⟩

/-- A call looks at the clock, and unless its wait could not end it is sent. -/
theorem yields_call_iff {timeout : Duration} {request : Call} {read : Bytes → Except Error α}
    {result : Except Error α} :
    (call timeout request read).Yields a events result b ↔
      b = a ∧ ∃ now,
        (deadline? now timeout = none ∧ events = [⟨.clock, now⟩] ∧
          result = .error (.client (.longTimeout request.operation timeout))) ∨
        ∃ deadline reply, deadline? now timeout = some deadline ∧
          events = [⟨.clock, now⟩, ⟨.send request deadline, reply⟩] ∧
          result = answered timeout request read reply := by
  rw [yields_call_runs_iff]
  constructor
  · rintro ⟨body, hrun, rfl, rfl⟩
    refine ⟨rfl, ?_⟩
    obtain ⟨now, ⟨hd, rfl, rfl⟩ | ⟨deadline, reply, hd, rfl, rfl⟩⟩ := runs_exchange_iff.mp hrun
    · exact ⟨now, Or.inl ⟨hd, rfl, rfl⟩⟩
    · exact ⟨now, Or.inr ⟨deadline, reply, hd, rfl, rfl⟩⟩
  · rintro ⟨rfl, now, ⟨hd, rfl, rfl⟩ | ⟨deadline, reply, hd, rfl, rfl⟩⟩
    · exact ⟨_, runs_exchange_iff.mpr ⟨now, Or.inl ⟨hd, rfl, rfl⟩⟩, rfl, rfl⟩
    · exact ⟨_, runs_exchange_iff.mpr ⟨now, Or.inr ⟨deadline, reply, hd, rfl, rfl⟩⟩, rfl, rfl⟩

/-- The credential an answer shows, which must be there. -/
def held (mechanism : Mechanism) (answer : Except Error (Option Credential)) :
    Except Error Credential :=
  answer.bind fun
    | none => .error (.security (.noCredential mechanism))
    | some c => .ok c

theorem yields_credential_error {mechanism : Mechanism} {error : Error}
    (h : (credential mechanism).Yields a events (.error error) b) :
    b = a ∧ ∃ answer, events = [⟨.device .credential, answer⟩] ∧
      held mechanism answer = .error error := by
  rcases yields_bind_iff.mp h with ⟨e, hask, he⟩ | ⟨found, between, before, after, rfl, hask, hrest⟩
  · obtain ⟨hrun, rfl⟩ := yields_ofProgram_iff.mp hask
    obtain rfl := Except.error.inj he
    exact ⟨rfl, _, runs_query_iff.mp hrun, rfl⟩
  · obtain ⟨hrun, rfl⟩ := yields_ofProgram_iff.mp hask
    obtain rfl := runs_query_iff.mp hrun
    cases found with
    | none =>
      obtain ⟨rfl, he, rfl⟩ := yields_ofResult_iff.mp hrest
      exact ⟨rfl, _, rfl, he.symm⟩
    | some c =>
      change Runs (.done (Except.ok c, { between with credential := some c })) after (_, b) at hrest
      obtain ⟨-, hpair⟩ := runs_done_iff.mp hrest
      exact nomatch (Prod.mk.inj hpair).1

theorem yields_credential_ok {mechanism : Mechanism} {c : Credential}
    (h : (credential mechanism).Yields a events (.ok c) b) :
    b = { a with credential := some c } ∧ events = [⟨.device .credential, .ok (some c)⟩] := by
  rcases yields_bind_iff.mp h with ⟨e, -, he⟩ | ⟨found, between, before, after, rfl, hask, hrest⟩
  · exact nomatch he
  · obtain ⟨hrun, rfl⟩ := yields_ofProgram_iff.mp hask
    obtain rfl := runs_query_iff.mp hrun
    cases found with
    | none => exact nomatch (yields_ofResult_iff.mp hrest).2.1
    | some c' =>
      change Runs (.done (Except.ok c', { between with credential := some c' })) after (_, b)
        at hrest
      obtain ⟨rfl, hpair⟩ := runs_done_iff.mp hrest
      obtain ⟨hc, rfl⟩ := Prod.mk.inj hpair
      obtain rfl := Except.ok.inj hc
      exact ⟨rfl, rfl⟩

theorem yields_expiry_iff {ttl : Duration} {result : Except Error Nat} :
    (expiry ttl).Yields a events result b ↔
      ∃ now, events = [⟨.epoch, now⟩] ∧ result = Token.expiry now ttl ∧ b = a := by
  have hrun : (expiry ttl).run.run a =
      .ask .epoch fun now ↦ .done (Token.expiry now ttl, a) := rfl
  rw [Yields, hrun, runs_ask_iff]
  constructor
  · rintro ⟨now, rest, rfl, h⟩
    obtain ⟨rfl, hpair⟩ := runs_done_iff.mp h
    obtain ⟨rfl, rfl⟩ := Prod.mk.inj hpair
    exact ⟨now, rfl, rfl, rfl⟩
  · rintro ⟨now, rfl, rfl, rfl⟩
    exact ⟨now, [], rfl, .done _⟩

/-! ### Sessions put together -/

theorem Yields.andThen {s : Session α} {f : α → Session β} {x : α} {result : Except Error β}
    {between : Authorization} {before after : List Event}
    (hs : s.Yields a before (.ok x) between) (hf : (f x).Yields between after result b) :
    (s >>= f).Yields a (before ++ after) result b :=
  yields_bind_iff.mpr (Or.inr ⟨x, between, before, after, rfl, hs, hf⟩)

theorem Yields.stop {s : Session α} {f : α → Session β} {error : Error}
    (hs : s.Yields a events (.error error) b) : (s >>= f).Yields a events (.error error) b :=
  yields_bind_iff.mpr (Or.inl ⟨error, hs, rfl⟩)

theorem yields_credential_some (mechanism : Mechanism) (c : Credential) (a : Authorization) :
    (credential mechanism).Yields a [⟨.device .credential, .ok (some c)⟩] (.ok c)
      { a with credential := some c } :=
  Program.Runs.ask _ _ (Program.Runs.done _)

theorem yields_required_of {part : Session α} {isEmpty : α → Bool} {error : Error} {x : α}
    (h : part.Yields a events (.ok x) b) (hx : isEmpty x = false) :
    (required part isEmpty error).Yields a events (.ok x) b :=
  yields_required_iff.mpr ⟨.ok x, h, (checked_eq_ok_iff.mpr ⟨rfl, hx⟩).symm⟩
end Enrollment.Session
