import Enrollment.Proofs.Attempt
import Enrollment.Proofs.Registration
import Mathlib.Data.List.Forall2
namespace Enrollment

/-!
# Two runs side by side

Two programs are coupled if they ask like questions for as long as they are given
like answers, and then come to like results.  What is like what is a parameter:
it says in which keys, signatures, tokens and credentials two runs may differ.
An attempt is coupled with itself, whatever they are, because it hands all of
these on and never looks inside.
-/

open Program Session

variable {α β γ δ : Type}

/-- Two results that fail alike, or both come to something. -/
inductive ResultLike (R : α → β → Prop) : Except Error α → Except Error β → Prop
  | error (error : Error) : ResultLike R (.error error) (.error error)
  | ok {x : α} {y : β} (h : R x y) : ResultLike R (.ok x) (.ok y)

theorem ResultLike.refl (result : Except Error α) : ResultLike (· = ·) result result := by
  cases result with
  | error error => exact .error error
  | ok x => exact .ok rfl

theorem ResultLike.eq {result result' : Except Error α} (h : ResultLike (· = ·) result result') :
    result' = result := by
  cases h with
  | error error => rfl
  | ok h => rw [h]

/-- What two runs may differ in.  Like replies to a nonce request hand out like
keys, and like signatures make like tokens. -/
structure Likeness where
  key : Bytes → Bytes → Prop
  signature : Bytes → Bytes → Prop
  token : String → String → Prop
  credential : Credential → Credential → Prop
  nonce : Reply → Reply → Prop
  delivered : ∀ {reply reply' : Reply}, nonce reply reply' → ∀ timeout,
    ResultLike key ((reply.body .requestNonce timeout).bind nonceKey)
      ((reply'.body .requestNonce timeout).bind nonceKey)
  written : ∀ {scope : String} {expiry : Nat} {s s' : Bytes}, signature s s' →
    ResultLike token (Token.ofSignature scope expiry s) (Token.ofSignature scope expiry s')

namespace Likeness

theorem delivered_same {reply reply' : Reply} (h : reply = reply') (timeout : Duration) :
    ResultLike (· = ·) ((reply.body .requestNonce timeout).bind nonceKey)
      ((reply'.body .requestNonce timeout).bind nonceKey) := by
  rw [h]
  exact .refl _

theorem written_same {scope : String} {expiry : Nat} {s s' : Bytes} (h : s = s') :
    ResultLike (· = ·) (Token.ofSignature scope expiry s) (Token.ofSignature scope expiry s') := by
  rw [h]
  exact .refl _

variable (L : Likeness)

inductive CallLike : Call → Call → Prop
  | requestNonce (id : String) (body : Bytes) {c c' : Credential} (hc : L.credential c c') :
      CallLike (.requestNonce id body c) (.requestNonce id body c')
  | authenticate (id : String) (body : Bytes) {c c' : Credential} (hc : L.credential c c')
      {token token' : Option String} (ht : Option.Rel L.token token token') :
      CallLike (.authenticate id body c token) (.authenticate id body c' token')
  | getStatus (operationId id : String) {c c' : Credential} (hc : L.credential c c')
      {token token' : Option String} (ht : Option.Rel L.token token token') :
      CallLike (.getStatus operationId id c token) (.getStatus operationId id c' token')

theorem CallLike.operation_eq {L : Likeness} {request request' : Call}
    (h : L.CallLike request request') : request'.operation = request.operation := by
  cases h <;> rfl

end Likeness

/-- A question in which nothing may differ, nor in what it is answered. -/
def Query.isPlain : Query → Bool
  | .device .credential | .device (.sign _) | .device (.importKey _) | .send .. => false
  | _ => true

namespace Likeness

variable (L : Likeness)

inductive QueryLike : Query → Query → Prop
  | plain (q : Query) (h : q.isPlain = true) : QueryLike q q
  | credential : QueryLike (.device .credential) (.device .credential)
  | sign (data : Bytes) : QueryLike (.device (.sign data)) (.device (.sign data))
  | importKey {key key' : Bytes} (h : L.key key key') :
      QueryLike (.device (.importKey key)) (.device (.importKey key'))
  | send {request request' : Call} (h : L.CallLike request request') (deadline : Duration) :
      QueryLike (.send request deadline) (.send request' deadline)

/-- Like questions with like answers. -/
inductive EventLike : Event → Event → Prop
  | plain {q : Query} (h : q.isPlain = true) (answer : q.Answer) :
      EventLike ⟨q, answer⟩ ⟨q, answer⟩
  | credential {answer answer' : Except Error (Option Credential)}
      (h : ResultLike (Option.Rel L.credential) answer answer') :
      EventLike ⟨.device .credential, answer⟩ ⟨.device .credential, answer'⟩
  | sign (data : Bytes) {answer answer' : Except Error Bytes}
      (h : ResultLike L.signature answer answer') :
      EventLike ⟨.device (.sign data), answer⟩ ⟨.device (.sign data), answer'⟩
  | importKey {key key' : Bytes} (h : L.key key key') (answer : Except Error Unit) :
      EventLike ⟨.device (.importKey key), answer⟩ ⟨.device (.importKey key'), answer⟩
  | nonce {request request' : Call} (h : L.CallLike request request')
      (hoperation : request.operation = .requestNonce) (deadline : Duration) {reply reply' : Reply}
      (hreply : L.nonce reply reply') :
      EventLike ⟨.send request deadline, reply⟩ ⟨.send request' deadline, reply'⟩
  | send {request request' : Call} (h : L.CallLike request request')
      (hoperation : request.operation ≠ .requestNonce) (deadline : Duration) (reply : Reply) :
      EventLike ⟨.send request deadline, reply⟩ ⟨.send request' deadline, reply⟩

/-- As long as the questions of two traces are alike, so are the answers to those
of one kind. -/
def Tracks (kind : Query → Prop) : List Event → List Event → Prop
  | e :: events, e' :: events' => L.QueryLike e.query e'.query →
    (kind e.query → L.EventLike e e') ∧ Tracks kind events events'
  | _, _ => True

/-- Programs that ask like questions for as long as they are given like answers. -/
inductive Coupled (R : α → β → Prop) : Program α → Program β → Prop
  | done {a : α} {b : β} (h : R a b) : Coupled R (.done a) (.done b)
  | ask {q q' : Query} {next : q.Answer → Program α} {next' : q'.Answer → Program β}
      (hquery : L.QueryLike q q')
      (h : ∀ answer answer', L.EventLike ⟨q, answer⟩ ⟨q', answer'⟩ →
        Coupled R (next answer) (next' answer')) : Coupled R (.ask q next) (.ask q' next')

variable {L} {R : α → β → Prop} {S : γ → δ → Prop}

namespace Coupled

/-- Coupled programs go the same way through like answers. -/
theorem tracked {kind : Query → Prop} {p : Program α} {p' : Program β}
    {events events' : List Event} {a : α} {b : β} (h : L.Coupled R p p')
    (hrun : Runs p events a) (hrun' : Runs p' events' b) (hkind : L.Tracks kind events events')
    (hother : L.Tracks (fun q ↦ ¬ kind q) events events') :
    List.Forall₂ L.EventLike events events' ∧ R a b := by
  induction h generalizing events events' with
  | done h =>
    obtain ⟨rfl, rfl⟩ := runs_done_iff.mp hrun
    obtain ⟨rfl, rfl⟩ := runs_done_iff.mp hrun'
    exact ⟨.nil, h⟩
  | @ask q q' next next' hquery _ ih =>
    obtain ⟨answer, rest, rfl, hrest⟩ := runs_ask_iff.mp hrun
    obtain ⟨answer', rest', rfl, hrest'⟩ := runs_ask_iff.mp hrun'
    obtain ⟨hin, hkind⟩ := hkind hquery
    obtain ⟨hout, hother⟩ := hother hquery
    have hevent : L.EventLike ⟨q, answer⟩ ⟨q', answer'⟩ := by
      by_cases hq : kind q
      · exact hin hq
      · exact hout hq
    obtain ⟨hevents, hresult⟩ := ih answer answer' hevent hrest hrest' hkind hother
    exact ⟨.cons hevent hevents, hresult⟩

theorem bind {p : Program α} {p' : Program β} {f : α → Program γ} {g : β → Program δ}
    (h : L.Coupled R p p') (hf : ∀ a b, R a b → L.Coupled S (f a) (g b)) :
    L.Coupled S (p.bind f) (p'.bind g) := by
  induction h with
  | done h => exact hf _ _ h
  | ask hquery _ ih => exact .ask hquery ih

theorem mono {R' : α → β → Prop} {p : Program α} {p' : Program β} (h : L.Coupled R p p')
    (hR : ∀ a b, R a b → R' a b) : L.Coupled R' p p' := by
  induction h with
  | done h => exact .done (hR _ _ h)
  | ask hquery _ ih => exact .ask hquery ih

theorem query {q : Query} (h : q.isPlain = true) :
    L.Coupled (· = ·) (Program.query q) (Program.query q) := by
  refine .ask (.plain q h) fun answer answer' hevent ↦ .done ?_
  cases hevent with
  | plain => rfl
  | _ => exact nomatch h

end Coupled

/-! ### Sessions side by side -/

variable (L) in
structure AuthorizationLike (a a' : Authorization) : Prop where
  credential : Option.Rel L.credential a.credential a'.credential
  bearerToken : Option.Rel L.token a.bearerToken a'.bearerToken

variable (L) in
/-- Sessions that are begun and left with like authorizations. -/
def Relates (R : α → β → Prop) (s : Session α) (s' : Session β) : Prop :=
  ∀ a a', L.AuthorizationLike a a' →
    L.Coupled (fun r r' ↦ ResultLike R r.1 r'.1 ∧ L.AuthorizationLike r.2 r'.2)
      (s.run.run a) (s'.run.run a')

namespace Relates

theorem of_result {result : Except Error α} {result' : Except Error β}
    (h : ResultLike R result result') : L.Relates R (ofResult result) (ofResult result') :=
  fun _ _ ha ↦ .done ⟨h, ha⟩

theorem of_pure {x : α} {y : β} (h : R x y) : L.Relates R (pure x) (pure y) :=
  fun _ _ ha ↦ .done ⟨.ok h, ha⟩

theorem of_modify {f g : Authorization → Authorization}
    (h : ∀ a a', L.AuthorizationLike a a' → L.AuthorizationLike (f a) (g a')) :
    L.Relates (· = ·) (modify f : Session Unit) (modify g) :=
  fun a a' ha ↦ .done ⟨.ok rfl, h a a' ha⟩

theorem of_get : L.Relates L.AuthorizationLike (get : Session Authorization) get :=
  fun _ _ ha ↦ .done ⟨.ok ha, ha⟩

theorem of_program {p : Program (Except Error α)} {p' : Program (Except Error β)}
    (h : L.Coupled (ResultLike R) p p') : L.Relates R (ofProgram p) (ofProgram p') :=
  fun _ _ ha ↦ h.bind fun _ _ hresult ↦ .done ⟨hresult, ha⟩

theorem bind {s : Session α} {s' : Session β} {f : α → Session γ} {g : β → Session δ}
    (h : L.Relates R s s') (hf : ∀ x y, R x y → L.Relates S (f x) (g y)) :
    L.Relates S (s >>= f) (s' >>= g) := by
  intro a a' ha
  rw [run_bind, run_bind]
  refine (h a a' ha).bind ?_
  rintro ⟨result, b⟩ ⟨result', b'⟩ ⟨hresult, hb⟩
  cases hresult with
  | error error => exact .done ⟨.error error, hb⟩
  | ok hxy => exact hf _ _ hxy b b' hb

/-- A part in which nothing differs, and what follows it. -/
theorem andThen {s : Session α} {f : α → Session γ} {g : α → Session δ}
    (h : L.Relates (· = ·) s s) (hf : ∀ x, L.Relates S (f x) (g x)) :
    L.Relates S (s >>= f) (s >>= g) :=
  h.bind fun x _ hxy ↦ hxy ▸ hf x

theorem of_same {p : Program (Except Error α)} (h : L.Coupled (· = ·) p p) :
    L.Relates (· = ·) (ofProgram p) (ofProgram p) := by
  apply of_program
  exact h.mono fun result _ hresult ↦ hresult ▸ .refl result

theorem of_registrationId : L.Relates (· = ·) registrationId registrationId :=
  of_same (Coupled.query (q := .device .registrationId) rfl)

theorem of_endorsementKey : L.Relates (· = ·) endorsementKey endorsementKey :=
  of_same (Coupled.query (q := .device .endorsementKey) rfl)

theorem of_storageRootKey : L.Relates (· = ·) storageRootKey storageRootKey :=
  of_same (Coupled.query (q := .device .storageRootKey) rfl)

theorem of_importKey {key key' : Bytes} (h : L.key key key') :
    L.Relates (· = ·) (importKey key) (importKey key') := by
  refine of_program (.ask (.importKey h) fun answer answer' hevent ↦ .done ?_)
  cases hevent with
  | plain hplain => exact nomatch hplain
  | importKey => exact .refl _

theorem of_expiry (ttl : Duration) : L.Relates (· = ·) (expiry ttl) (expiry ttl) := by
  intro a a' ha
  refine .ask (.plain .epoch rfl) fun now now' hevent ↦ ?_
  cases hevent with
  | plain => exact .done ⟨.refl _, ha⟩

theorem of_required {part : Session α} (h : L.Relates (· = ·) part part) (isEmpty : α → Bool)
    (error : Error) :
    L.Relates (· = ·) (required part isEmpty error) (required part isEmpty error) :=
  h.andThen fun _ ↦ of_result (.refl _)

/-- The credential is shown, kept and handed on. -/
theorem of_credential (mechanism : Mechanism) :
    L.Relates L.credential (Session.credential mechanism) (Session.credential mechanism) := by
  have hask : L.Relates (Option.Rel L.credential) (ofProgram (query (.device .credential)))
      (ofProgram (query (.device .credential))) := by
    refine of_program (.ask .credential fun answer answer' hevent ↦ .done ?_)
    cases hevent with
    | plain h => exact nomatch h
    | credential h => exact h
  refine hask.bind fun found found' hfound ↦ ?_
  cases hfound with
  | none => exact of_result (.error _)
  | @some c c' hc =>
    refine Relates.bind (R := (· = ·)) (of_modify ?_) fun _ _ _ ↦ of_pure hc
    exact fun a a' ha ↦ ⟨.some hc, ha.bearerToken⟩

theorem of_signedToken (config : Config) (id : String) :
    L.Relates L.token (signedToken config id) (signedToken config id) := by
  refine (of_result (.refl _)).andThen fun scope ↦ (of_expiry _).andThen fun expiry ↦ ?_
  refine of_program (.ask (.sign _) fun answer answer' hevent ↦ ?_)
  cases hevent with
  | plain h => exact nomatch h
  | sign _ h =>
    cases h with
    | error error => exact .done (.error error)
    | ok h => exact .done (L.written h)

theorem of_call {request request' : Call} (h : L.CallLike request request') (timeout : Duration)
    {read : Bytes → Except Error α} {R : α → α → Prop}
    (hread : ∀ deadline reply reply',
      L.EventLike ⟨.send request deadline, reply⟩ ⟨.send request' deadline, reply'⟩ →
        ResultLike R (answered timeout request read reply)
          (answered timeout request' read reply')) :
    L.Relates R (call timeout request read) (call timeout request' read) := by
  intro a a' ha
  rw [run_call, run_call]
  refine .ask (.plain .clock rfl) fun now now' hevent ↦ ?_
  cases hevent with
  | plain =>
    cases deadline? now timeout with
    | none =>
      rw [h.operation_eq]
      exact .done ⟨.error _, ha⟩
    | some deadline =>
      refine .ask (.send h deadline) fun reply reply' hreply ↦ .done ⟨?_, ha⟩
      exact hread deadline reply reply' hreply

/-- To like calls but a nonce request the replies are the same. -/
theorem of_replied {request request' : Call} (h : L.CallLike request request')
    (hoperation : request.operation ≠ .requestNonce) (timeout : Duration)
    (read : Bytes → Except Error α) :
    L.Relates (· = ·) (call timeout request read) (call timeout request' read) := by
  apply of_call h
  intro deadline reply reply' hevent
  cases hevent with
  | plain hplain => exact nomatch hplain
  | nonce _ hnonce => exact absurd hnonce hoperation
  | send =>
    rw [answered, answered, h.operation_eq]
    exact .refl _

theorem of_nonce {c c' : Credential} (h : L.credential c c') (i : KeyIdentity)
    (timeout : Duration) :
    L.Relates L.key (call timeout (.requestNonce i.registrationId i.body c) nonceKey)
      (call timeout (.requestNonce i.registrationId i.body c') nonceKey) := by
  apply of_call (.requestNonce _ _ h)
  intro deadline reply reply' hevent
  cases hevent with
  | plain hplain => exact nomatch hplain
  | nonce _ _ _ hreply => exact L.delivered hreply timeout
  | send _ hother => exact absurd rfl hother

/-! ### The handshake -/

theorem of_keyIdentity : L.Relates (· = ·) keyIdentity keyIdentity :=
  (of_required of_registrationId _ _).andThen fun _ ↦
    (of_required of_endorsementKey _ _).andThen fun _ ↦
      (of_required of_storageRootKey _ _).andThen fun _ ↦ of_pure rfl

theorem of_registerByKey (config : Config) :
    L.Relates (· = ·) (registerByKey config) (registerByKey config) := by
  refine of_keyIdentity.andThen fun i ↦ ?_
  refine (of_credential _).bind fun c c' hc ↦ ?_
  refine (of_nonce hc i _).bind fun key key' hkey ↦ ?_
  refine (of_importKey hkey).bind fun _ _ _ ↦ ?_
  refine (of_signedToken config i.registrationId).bind fun token token' htoken ↦ ?_
  refine Relates.bind (R := (· = ·)) (of_modify ?_) fun _ _ _ ↦ ?_
  · exact fun a a' ha ↦ ⟨ha.credential, .some htoken⟩
  · exact of_replied (.authenticate _ _ hc (.some htoken)) nofun _ _

theorem of_registerByCertificate (config : Config) :
    L.Relates (· = ·) (registerByCertificate config) (registerByCertificate config) := by
  refine (of_required of_registrationId _ _).andThen fun id ↦ ?_
  refine (of_credential _).bind fun c c' hc ↦ ?_
  exact of_replied (.authenticate _ _ hc .none) nofun _ _

theorem of_register (config : Config) (mechanism : Mechanism) :
    L.Relates (· = ·) (register config mechanism) (register config mechanism) := by
  rw [register_eq]
  refine (of_result (.refl _)).andThen fun _ ↦ ?_
  cases mechanism with
  | symmetricKey => exact of_registerByKey config
  | x509 => exact of_registerByCertificate config

theorem of_queryStatus (operationId : String) (timeout : Duration) :
    L.Relates (· = ·) (queryStatus operationId timeout) (queryStatus operationId timeout) := by
  unfold queryStatus
  split
  · exact of_result (.error _)
  · refine (of_required of_registrationId _ _).andThen fun id ↦ ?_
    refine of_get.bind ?_
    rintro ⟨credential, token⟩ ⟨credential', token'⟩ ⟨hcredential, htoken⟩
    cases hcredential with
    | none => exact of_result (.error _)
    | some hlike => exact of_replied (.getStatus _ _ hlike htoken) nofun _ _

end Relates

/-! ### Attempts -/

variable (L) in
/-- The same result, or two polls that differ at most in what they are authorized
by. -/
inductive ProgressLike : Client.Progress → Client.Progress → Prop
  | finished (found : Except Error Outcome) : ProgressLike (.finished found) (.finished found)
  | polling (started : Duration) (operationId : String) {a a' : Authorization}
      (h : L.AuthorizationLike a a') :
      ProgressLike (.polling ⟨started, operationId, a⟩) (.polling ⟨started, operationId, a'⟩)

variable (L) in
/-- Where two runs of an attempt have come to, and with which client. -/
def LeftLike (left left' : Client.Progress × Client) : Prop :=
  L.ProgressLike left.1 left'.1 ∧ left'.2 = left.2

namespace Coupled

theorem query_bind {q : Query} (h : q.isPlain = true) {f : q.Answer → Program γ}
    {g : q.Answer → Program δ} (hf : ∀ answer, L.Coupled S (f answer) (g answer)) :
    L.Coupled S (Program.query q >>= f) (Program.query q >>= g) :=
  (Coupled.query h).bind fun answer _ hanswer ↦ hanswer ▸ hf answer

theorem of_transition (c : Client) (next : State) :
    L.Coupled (· = ·) (c.transition next) (c.transition next) := by
  unfold Client.transition
  split
  · exact .done rfl
  · exact query_bind rfl fun _ ↦ .done rfl

theorem of_transition_bind (c : Client) (next : State) {f g : Client → Program γ}
    {S : γ → γ → Prop} (hf : ∀ c, L.Coupled S (f c) (g c)) :
    L.Coupled S ((c.transition next).bind f) ((c.transition next).bind g) :=
  (of_transition c next).bind fun c _ hc ↦ hc ▸ hf c

theorem of_judge (c : Client) (started : Duration) (reply : Except Error Outcome)
    {a a' : Authorization} (h : L.AuthorizationLike a a') :
    L.Coupled L.LeftLike (c.judge started reply a) (c.judge started reply a') := by
  rcases Client.settles_or_pending reply with ⟨found, hsettles⟩ | ⟨outcome, id, rfl, hpending⟩
  · rw [Client.judge_of_settles hsettles, Client.judge_of_settles hsettles]
    exact .done ⟨.finished found, rfl⟩
  · rw [Client.judge_of_pending hpending, Client.judge_of_pending hpending]
    exact of_transition_bind c _ fun c ↦ .done ⟨.polling started id h, rfl⟩

theorem of_begin (c : Client) : L.Coupled L.LeftLike c.begin c.begin := by
  rw [Client.begin_eq]
  refine query_bind rfl fun started ↦ of_transition_bind c _ fun c ↦ ?_
  refine (Relates.of_register c.config c.mechanism .empty .empty ⟨.none, .none⟩).bind ?_
  rintro ⟨reply, a⟩ ⟨reply', a'⟩ ⟨hreply, ha⟩
  obtain rfl := hreply.eq
  exact of_judge c started reply' ha

theorem of_poll (c : Client) (started : Duration) (operationId : String) {a a' : Authorization}
    (h : L.AuthorizationLike a a') :
    L.Coupled L.ProgressLike (c.poll ⟨started, operationId, a⟩)
      (c.poll ⟨started, operationId, a'⟩) := by
  rw [Client.poll_eq, Client.poll_eq]
  refine query_bind rfl fun now ↦ ?_
  have hremaining : ∀ now, c.remaining ⟨started, operationId, a'⟩ now =
      c.remaining ⟨started, operationId, a⟩ now := fun _ ↦ rfl
  rw [hremaining]
  split
  · exact .done (.finished _)
  · refine query_bind rfl fun _ ↦ query_bind rfl fun later ↦ ?_
    refine (Relates.of_queryStatus operationId _ a a' h).bind ?_
    rintro ⟨result, b⟩ ⟨result', b'⟩ ⟨hresult, -⟩
    obtain rfl := hresult.eq
    dsimp only
    cases Client.verdict? result' with
    | none => exact .done (.polling started operationId h)
    | some found => exact .done (.finished found)

theorem of_polls (c : Client) (n : Nat) {progress progress' : Client.Progress}
    (h : L.ProgressLike progress progress') :
    L.Coupled L.ProgressLike (c.polls n progress) (c.polls n progress') := by
  induction n generalizing progress progress' with
  | zero => exact .done h
  | succ n ih =>
    cases h with
    | finished found => exact .done (.finished found)
    | polling started operationId h =>
      exact (of_poll c started operationId h).bind fun _ _ hprogress ↦ ih hprogress

theorem of_finish (c : Client) {progress progress' : Client.Progress}
    (h : L.ProgressLike progress progress') :
    L.Coupled L.LeftLike (c.finish progress) (c.finish progress') := by
  cases h with
  | finished found => exact of_transition_bind c _ fun c ↦ .done ⟨.finished found, rfl⟩
  | polling started operationId h => exact .done ⟨.polling started operationId h, rfl⟩

/-- An attempt hands on keys, signatures, tokens and credentials and never looks
inside. -/
theorem of_attempt (c : Client) (n : Nat) :
    L.Coupled L.LeftLike (c.attempt n) (c.attempt n) := by
  rw [Client.attempt_eq]
  refine (of_begin c).bind ?_
  rintro ⟨progress, c⟩ ⟨progress', c'⟩ ⟨hprogress, rfl⟩
  exact (of_polls c' n hprogress).bind fun _ _ hlast ↦ of_finish c' hlast

end Coupled
end Likeness
end Enrollment
