import Enrollment.Proofs.Registration
namespace Enrollment

/-!
# The calls of a registration

A call is sent after what came before it: the id and the credential that it
carries are what the device has answered.  At most two calls are made to
register, and they agree.
-/

open Program Session

variable {config : Config} {mechanism : Mechanism} {events : List Event}
  {result : Except Error Outcome} {left : Authorization}

namespace Call

def registrationId : Call → String
  | requestNonce id _ _ => id
  | authenticate id _ _ _ => id
  | getStatus _ id _ _ => id

def credential : Call → Credential
  | requestNonce _ _ credential => credential
  | authenticate _ _ credential _ => credential
  | getStatus _ _ credential _ => credential

def bearerToken : Call → Option String
  | requestNonce _ _ _ => none
  | authenticate _ _ _ token => token
  | getStatus _ _ _ token => token

end Call

/-- The answers that the device gave when it was asked for its id. -/
def reads (events : List Event) : List (Except Error String) :=
  events.filterMap fun
    | ⟨.device .registrationId, answer⟩ => some answer
    | _ => none

/-- Of each call that was sent, and of what came before it. -/
def EachSend (P : List Event → Call → Prop) (events : List Event) : Prop :=
  ∀ before request deadline reply after,
    events = before ++ ⟨.send request deadline, reply⟩ :: after → P before request

namespace EachSend

variable {P Q : List Event → Call → Prop} {xs ys : List Event}

theorem imp (h : EachSend P events) (himp : ∀ before request, P before request → Q before request) :
    EachSend Q events := by
  intro before request deadline reply after hsplit
  exact himp before request (h before request deadline reply after hsplit)

theorem of_calls_eq_nil (h : calls events = []) : EachSend P events := by
  intro before request deadline reply after hsplit
  have hmem : request ∈ calls events := mem_calls_iff.mpr ⟨deadline, reply, by simp [hsplit]⟩
  simp [h] at hmem

theorem exists_of_mem {request : Call} (h : EachSend P events) (hmem : request ∈ calls events) :
    ∃ before, P before request := by
  obtain ⟨deadline, reply, hsend⟩ := mem_calls_iff.mp hmem
  obtain ⟨before, after, hsplit⟩ := List.append_of_mem hsend
  exact ⟨before, h before request deadline reply after hsplit⟩

/-- What is sent in the second part comes after all of the first. -/
theorem append_iff :
    EachSend P (xs ++ ys) ↔ EachSend P xs ∧ EachSend (fun before ↦ P (xs ++ before)) ys := by
  constructor
  · intro h
    constructor
    · intro before request deadline reply after hsplit
      exact h before request deadline reply (after ++ ys) (by simp [hsplit])
    · intro before request deadline reply after hsplit
      exact h (xs ++ before) request deadline reply after (by simp [hsplit])
  · rintro ⟨hxs, hys⟩ before request deadline reply after hsplit
    rcases List.append_eq_append_iff.mp hsplit with ⟨middle, rfl, rfl⟩ | ⟨middle, rfl, hmiddle⟩
    · exact hys middle request deadline reply after rfl
    · cases middle with
      | nil =>
        have hfirst := hys [] request deadline reply after (by simpa using hmiddle.symm)
        simpa using hfirst
      | cons e middle =>
        obtain ⟨rfl, rfl⟩ := List.cons.inj hmiddle
        exact hxs before request deadline reply middle rfl

theorem append_of_calls_eq_nil (hxs : EachSend P xs) (hys : calls ys = []) :
    EachSend P (xs ++ ys) :=
  append_iff.mpr ⟨hxs, of_calls_eq_nil hys⟩

theorem singleton_iff {request : Call} {deadline : Duration} {reply : Reply} :
    EachSend P [⟨.send request deadline, reply⟩] ↔ P [] request := by
  constructor
  · intro h
    exact h [] request deadline reply [] rfl
  · intro h before request' deadline' reply' after hsplit
    cases before with
    | nil =>
      obtain ⟨⟨rfl, -⟩, -⟩ : (request = request' ∧ deadline = deadline') ∧ reply = reply' := by
        simpa using congrArg List.head? hsplit
      exact h
    | cons e before => simp at hsplit

theorem concat {before : List Event} {request : Call} (deadline : Duration) (reply : Reply)
    (hevents : events = before ++ [⟨.send request deadline, reply⟩]) (hbefore : EachSend P before)
    (h : P before request) : EachSend P events := by
  rw [hevents]
  have hlast : P (before ++ []) request := by simpa using h
  exact append_iff.mpr ⟨hbefore, singleton_iff.mpr hlast⟩

end EachSend

/-! ### The calls of a registration -/

/-- A call made to register: the id was read once for it, and the credential is
the one the device has shown. -/
structure SentToRegister (before : List Event) (request : Call) : Prop where
  operation : request.operation ≠ .getStatus
  read : reads before = [.ok request.registrationId]
  named : request.registrationId ≠ ""
  credential : ⟨.device .credential, .ok (some request.credential)⟩ ∈ before

theorem eachSend_requestNonce {i : KeyIdentity} (hi : i.Complete) {c : Credential}
    {now deadline : Duration} {reply : Reply} :
    EachSend SentToRegister (i.events ++ [⟨.device .credential, .ok (some c)⟩, ⟨.clock, now⟩,
      ⟨.send (.requestNonce i.registrationId i.body c) deadline, reply⟩]) := by
  have hsent : SentToRegister (i.events ++ [⟨.device .credential, .ok (some c)⟩, ⟨.clock, now⟩])
      (.requestNonce i.registrationId i.body c) := {
    operation := nofun
    read := rfl
    named := hi.registrationId
    credential := by simp [Call.credential] }
  exact .concat deadline reply (by simp) (.of_calls_eq_nil rfl) hsent

theorem Grant.eachSend (g : Grant config) : EachSend SentToRegister g.events :=
  eachSend_requestNonce g.complete

theorem Grant.sent_registerCall (g : Grant config)
    (t : TokenMade config g.identity.registrationId) (now : Duration) :
    SentToRegister
      (g.events ++ ⟨.device (.importKey g.key), .ok ()⟩ :: (t.events ++ [⟨.clock, now⟩]))
      (g.registerCall t.token) where
  operation := nofun
  read := rfl
  named := g.complete.registrationId
  credential := by simp [Call.credential, Grant.events, Grant.registerCall]

theorem KeyCourse.eachSend (h : KeyCourse config events result left) :
    EachSend SentToRegister events := by
  cases h with
  | unidentified h => exact .of_calls_eq_nil h.calls_eq
  | bare hi h => exact .of_calls_eq_nil rfl
  | untimed hi h => exact .of_calls_eq_nil rfl
  | ungranted hi hd h => exact eachSend_requestNonce hi
  | unimported g => exact g.eachSend.append_of_calls_eq_nil rfl
  | imported g h =>
    cases h with
    | untokened h => exact g.eachSend.append_of_calls_eq_nil h.calls_eq
    | untimed t h => exact g.eachSend.append_of_calls_eq_nil rfl
    | @called t now deadline hd reply =>
      have hbefore : EachSend SentToRegister
          (g.events ++ ⟨.device (.importKey g.key), .ok ()⟩ :: (t.events ++ [⟨.clock, now⟩])) :=
        g.eachSend.append_of_calls_eq_nil rfl
      exact .concat deadline reply (by simp) hbefore (g.sent_registerCall t now)

theorem CertificateCourse.eachSend (h : CertificateCourse config events result left) :
    EachSend SentToRegister events := by
  cases h with
  | nameless h => exact .of_calls_eq_nil rfl
  | bare hid h => exact .of_calls_eq_nil rfl
  | untimed hid h => exact .of_calls_eq_nil rfl
  | @called id hid c now deadline hd reply =>
    have hsent : SentToRegister [⟨.device .registrationId, .ok id⟩,
        ⟨.device .credential, .ok (some c)⟩, ⟨.clock, now⟩]
        (.authenticate id (certificateBody id) c none) := {
      operation := nofun
      read := rfl
      named := hid
      credential := by simp [Call.credential] }
    exact .concat deadline reply rfl (.of_calls_eq_nil rfl) hsent

theorem Registration.eachSend (h : Registration config mechanism events result left) :
    EachSend SentToRegister events := by
  cases h with
  | refused h => exact .of_calls_eq_nil rfl
  | byKey h => exact h.eachSend
  | byCertificate h => exact h.eachSend

/-- The calls of a registration, and the token with which they leave it. -/
inductive RegisterCalls : Mechanism → Option String → List Call → Prop
  | none {mechanism : Mechanism} {token : Option String} : RegisterCalls mechanism token []
  | asked {id : String} {body : Bytes} {c : Credential} {token : Option String} :
      RegisterCalls .symmetricKey token [.requestNonce id body c]
  | byKey {id : String} {body : Bytes} {c : Credential} {token : String} :
      RegisterCalls .symmetricKey (some token)
        [.requestNonce id body c, .authenticate id body c (some token)]
  | byCertificate {id : String} {body : Bytes} {c : Credential} :
      RegisterCalls .x509 .none [.authenticate id body c .none]

theorem KeyCourse.registerCalls (h : KeyCourse config events result left) :
    RegisterCalls .symmetricKey left.bearerToken (calls events) := by
  cases h with
  | unidentified h =>
    rw [h.calls_eq]
    exact .none
  | bare hi h => exact .none
  | untimed hi h => exact .none
  | ungranted hi hd h => exact .asked
  | unimported g => exact .asked
  | @imported g rest _ _ h =>
    cases h with
    | untokened h =>
      have hcalls : calls (g.events ++ ⟨.device (.importKey g.key), .ok ()⟩ :: rest) =
          [g.request] := by
        rw [calls_append, calls_device, h.calls_eq]
        rfl
      rw [hcalls]
      exact .asked
    | untimed t h => exact .asked
    | called t hd => exact .byKey

theorem CertificateCourse.registerCalls (h : CertificateCourse config events result left) :
    RegisterCalls .x509 left.bearerToken (calls events) := by
  cases h with
  | called hid hd => exact .byCertificate
  | _ => exact .none

theorem Registration.registerCalls (h : Registration config mechanism events result left) :
    RegisterCalls mechanism left.bearerToken (calls events) := by
  cases h with
  | refused h => exact .none
  | byKey h => exact h.registerCalls
  | byCertificate h => exact h.registerCalls

theorem Registration.credential_mem (h : Registration config mechanism events result left)
    {c : Credential} (hc : left.credential = some c) :
    ⟨.device .credential, .ok (some c)⟩ ∈ events := by
  cases h with
  | refused h => exact nomatch hc
  | byKey h => exact h.credential_iff.mp hc
  | byCertificate h =>
    cases h with
    | nameless h => exact nomatch hc
    | bare hid h => exact nomatch hc
    | untimed hid h =>
      obtain rfl := Option.some.inj hc
      simp
    | called hid hd =>
      obtain rfl := Option.some.inj hc
      simp

namespace RegisterCalls

variable {token : Option String} {sent : List Call} {request : Call}

theorem operation_ne (h : RegisterCalls mechanism token sent) (hmem : request ∈ sent) :
    request.operation ≠ .getStatus := by
  cases h with
  | none => exact nomatch hmem
  | asked =>
    obtain rfl := List.mem_singleton.mp hmem
    exact nofun
  | byKey =>
    rcases List.mem_cons.mp hmem with rfl | hmem
    · exact nofun
    · obtain rfl := List.mem_singleton.mp hmem
      exact nofun
  | byCertificate =>
    obtain rfl := List.mem_singleton.mp hmem
    exact nofun

theorem same_registration (h : RegisterCalls mechanism token sent) {id id' : String}
    {body body' : Bytes} {c c' : Credential} {token' : Option String}
    (hnonce : .requestNonce id body c ∈ sent)
    (hregister : .authenticate id' body' c' token' ∈ sent) :
    id' = id ∧ body' = body := by
  cases h with
  | none => exact nomatch hnonce
  | asked => simp at hregister
  | byKey =>
    simp only [List.mem_cons, reduceCtorEq, List.not_mem_nil, or_false, false_or,
      Call.requestNonce.injEq, Call.authenticate.injEq] at hnonce hregister
    exact ⟨hregister.1.trans hnonce.1.symm, hregister.2.1.trans hnonce.2.1.symm⟩
  | byCertificate => simp at hnonce

theorem token_of_key (h : RegisterCalls .symmetricKey token sent) (hmem : request ∈ sent)
    (hoperation : request.operation = .authenticate) :
    ∃ text id body c, token = some text ∧ request = .authenticate id body c (some text) := by
  cases h with
  | none => exact nomatch hmem
  | asked =>
    obtain rfl := List.mem_singleton.mp hmem
    exact nomatch hoperation
  | byKey =>
    rcases List.mem_cons.mp hmem with rfl | hmem
    · exact nomatch hoperation
    · obtain rfl := List.mem_singleton.mp hmem
      exact ⟨_, _, _, _, rfl, rfl⟩

theorem of_certificate (h : RegisterCalls .x509 token sent) (hmem : request ∈ sent) :
    token = .none ∧ request.operation ≠ .requestNonce ∧ request.bearerToken = .none := by
  cases h with
  | none => exact nomatch hmem
  | byCertificate =>
    obtain rfl := List.mem_singleton.mp hmem
    exact ⟨rfl, nofun, rfl⟩

end RegisterCalls

end Enrollment
