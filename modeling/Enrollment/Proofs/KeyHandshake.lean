import Enrollment.Handshake
import Enrollment.Proofs.Session
namespace Enrollment

/-!
# The handshake by key, step by step

A step fails by what its question was answered, and `fault` reads the step's own
error off that answer.  `KeyCourse` lists the ways in which a handshake can go:
which steps it made, what each of them found, and which one ended it.
-/

open Program Session

def failure? {α : Type} : Except Error α → Option Error
  | .error error => some error
  | .ok _ => none

@[simp] theorem failure?_ok {α : Type} (x : α) : failure? (.ok x : Except Error α) = none := rfl

@[simp] theorem failure?_error {α : Type} (error : Error) :
    failure? (.error error : Except Error α) = some error := rfl

theorem failure?_eq_none_iff {α : Type} {result : Except Error α} :
    failure? result = none ↔ ∃ x, result = .ok x := by
  cases result <;> simp

theorem failure?_eq_some_iff {α : Type} {result : Except Error α} {error : Error} :
    failure? result = some error ↔ result = .error error := by
  cases result <;> simp

/-- What a nonce request must bring, and what a register call. -/
def callFault (timeout : Duration) (request : Call) (reply : Reply) : Option Error :=
  match request with
  | .requestNonce .. => failure? (answered timeout request nonceKey reply)
  | _ => failure? (answered timeout request Outcome.ofBytes reply)

/-- The error of the step that asked this question and got this answer. -/
def fault (config : Config) : Event → Option Error
  | ⟨.device .registrationId, answer⟩ =>
    failure? (checked String.isEmpty (.security .emptyRegistrationId) answer)
  | ⟨.device .endorsementKey, answer⟩ =>
    failure? (checked List.isEmpty (.security .emptyEndorsementKey) answer)
  | ⟨.device .storageRootKey, answer⟩ =>
    failure? (checked List.isEmpty (.security .emptyStorageRootKey) answer)
  | ⟨.device .credential, answer⟩ => failure? (held .symmetricKey answer)
  | ⟨.send request _, reply⟩ => callFault config.operationTimeout request reply
  | ⟨.device (.importKey _), answer⟩ => failure? answer
  | ⟨.epoch, now⟩ => failure? (Token.expiry now config.tokenTtl)
  | ⟨.device (.sign _), answer⟩ =>
    failure? (checked List.isEmpty (.client .emptySignature) answer)
  | _ => none

/-- A handshake fails within its steps, or takes them all and ends with a register
call, the reply to which says what it comes to. -/
inductive Concludes (config : Config) (steps : List Topic) :
    List Event → Except Error Outcome → Prop
  | stopped {events : List Event} {error : Error} (h : topics events <+: steps) :
      Concludes config steps events (.error error)
  | called (before : List Event) (request : Call) (deadline : Duration) (reply : Reply)
      {events : List Event} (hevents : events = before ++ [⟨.send request deadline, reply⟩])
      (hsteps : topics before = steps) (hoperation : request.operation = .authenticate) :
      Concludes config steps events
        (answered config.operationTimeout request Outcome.ofBytes reply)

namespace Concludes

variable {config : Config} {steps : List Topic} {events : List Event}
  {result : Except Error Outcome}

theorem prepend {first : List Topic} {before : List Event}
    (h : Concludes config steps events result) (hfirst : topics before = first) :
    Concludes config (first ++ steps) (before ++ events) result := by
  cases h with
  | stopped h =>
    apply Concludes.stopped
    rw [topics_append, hfirst]
    exact (List.prefix_append_right_inj first).mpr h
  | called middle request deadline reply hevents hsteps hoperation =>
    apply Concludes.called (before ++ middle) request deadline reply
    · rw [hevents, List.append_assoc]
    · rw [topics_append, hfirst, hsteps]
    · exact hoperation

theorem order (h : Concludes config steps events result) :
    topics events <+: steps ++ [.call .authenticate] := by
  cases h with
  | stopped h => exact h.trans (List.prefix_append _ _)
  | called before request deadline reply hevents hsteps hoperation =>
    rw [hevents, topics_append, hsteps]
    simp [topics, Query.topic, hoperation]

end Concludes

structure KeyIdentity.Complete (i : KeyIdentity) : Prop where
  registrationId : i.registrationId ≠ ""
  endorsementKey : i.endorsementKey ≠ []
  storageRootKey : i.storageRootKey ≠ []

def KeyIdentity.events (i : KeyIdentity) : List Event :=
  [⟨.device .registrationId, .ok i.registrationId⟩,
    ⟨.device .endorsementKey, .ok i.endorsementKey⟩,
    ⟨.device .storageRootKey, .ok i.storageRootKey⟩]

@[simp] theorem KeyIdentity.calls_events (i : KeyIdentity) : calls i.events = [] := rfl

/-- A key that the service has handed out to an identity with a credential. -/
structure Grant (config : Config) where
  identity : KeyIdentity
  complete : identity.Complete
  credential : Credential
  now : Duration
  deadline : Duration
  inTime : deadline? now config.operationTimeout = some deadline
  reply : Reply
  key : Bytes
  brings : answered config.operationTimeout
    (.requestNonce identity.registrationId identity.body credential) nonceKey reply = .ok key

namespace Grant

variable {config : Config}

def request (g : Grant config) : Call :=
  .requestNonce g.identity.registrationId g.identity.body g.credential

def registerCall (g : Grant config) (token : String) : Call :=
  .authenticate g.identity.registrationId g.identity.body g.credential (some token)

def events (g : Grant config) : List Event :=
  g.identity.events ++
    [⟨.device .credential, .ok (some g.credential)⟩, ⟨.clock, g.now⟩,
      ⟨.send g.request g.deadline, g.reply⟩]

@[simp] theorem calls_events (g : Grant config) : calls g.events = [g.request] := rfl

end Grant

/-- A token made for an id, and how it was made. -/
structure TokenMade (config : Config) (registrationId : String) where
  scope : String
  inScope : Token.scope config.idScope registrationId = .ok scope
  now : Option Duration
  expiry : Nat
  dated : Token.expiry now config.tokenTtl = .ok expiry
  signature : Bytes
  signed : signature ≠ []
  token : String
  written : Token.ofSignature scope expiry signature = .ok token

def TokenMade.events {config : Config} {registrationId : String}
    (t : TokenMade config registrationId) : List Event :=
  [⟨.epoch, t.now⟩, ⟨.device (.sign (Token.signingInput t.scope t.expiry)), .ok t.signature⟩]

@[simp] theorem TokenMade.calls_events {config : Config} {registrationId : String}
    (t : TokenMade config registrationId) : calls t.events = [] := rfl

inductive Unidentified (config : Config) : List Event → Error → Prop
  | nameless {answer : Except Error String} {error : Error}
      (h : fault config ⟨.device .registrationId, answer⟩ = some error) :
      Unidentified config [⟨.device .registrationId, answer⟩] error
  | unendorsed {id : String} (hid : id ≠ "") {answer : Except Error Bytes} {error : Error}
      (h : fault config ⟨.device .endorsementKey, answer⟩ = some error) :
      Unidentified config
        [⟨.device .registrationId, .ok id⟩, ⟨.device .endorsementKey, answer⟩] error
  | rootless {id : String} (hid : id ≠ "") {ek : Bytes} (hek : ek ≠ [])
      {answer : Except Error Bytes} {error : Error}
      (h : fault config ⟨.device .storageRootKey, answer⟩ = some error) :
      Unidentified config
        [⟨.device .registrationId, .ok id⟩, ⟨.device .endorsementKey, .ok ek⟩,
          ⟨.device .storageRootKey, answer⟩] error

inductive Untokened (config : Config) (registrationId : String) : List Event → Error → Prop
  | unscoped {error : Error} (h : Token.scope config.idScope registrationId = .error error) :
      Untokened config registrationId [] error
  | undated {scope : String} (hscope : Token.scope config.idScope registrationId = .ok scope)
      {now : Option Duration} {error : Error} (h : fault config ⟨.epoch, now⟩ = some error) :
      Untokened config registrationId [⟨.epoch, now⟩] error
  | unsigned {scope : String} (hscope : Token.scope config.idScope registrationId = .ok scope)
      {now : Option Duration} {expiry : Nat}
      (hexpiry : Token.expiry now config.tokenTtl = .ok expiry)
      {answer : Except Error Bytes} {error : Error}
      (h : fault config ⟨.device (.sign (Token.signingInput scope expiry)), answer⟩ =
        some error) :
      Untokened config registrationId
        [⟨.epoch, now⟩, ⟨.device (.sign (Token.signingInput scope expiry)), answer⟩] error

/-- What can still happen once the key is imported. -/
inductive AfterImport {config : Config} (g : Grant config) :
    List Event → Except Error Outcome → Option String → Prop
  | untokened {events : List Event} {error : Error}
      (h : Untokened config g.identity.registrationId events error) :
      AfterImport g events (.error error) none
  | untimed (t : TokenMade config g.identity.registrationId) {now : Duration}
      (h : deadline? now config.operationTimeout = none) :
      AfterImport g (t.events ++ [⟨.clock, now⟩])
        (.error (.client (.longTimeout .authenticate config.operationTimeout))) (some t.token)
  | called (t : TokenMade config g.identity.registrationId) {now deadline : Duration}
      (hd : deadline? now config.operationTimeout = some deadline) {reply : Reply} :
      AfterImport g (t.events ++ [⟨.clock, now⟩, ⟨.send (g.registerCall t.token) deadline, reply⟩])
        (answered config.operationTimeout (g.registerCall t.token) Outcome.ofBytes reply)
        (some t.token)

inductive KeyCourse (config : Config) :
    List Event → Except Error Outcome → Authorization → Prop
  | unidentified {events : List Event} {error : Error} (h : Unidentified config events error) :
      KeyCourse config events (.error error) .empty
  | bare {i : KeyIdentity} (hi : i.Complete) {answer : Except Error (Option Credential)}
      {error : Error} (h : fault config ⟨.device .credential, answer⟩ = some error) :
      KeyCourse config (i.events ++ [⟨.device .credential, answer⟩]) (.error error) .empty
  | untimed {i : KeyIdentity} (hi : i.Complete) {c : Credential} {now : Duration}
      (h : deadline? now config.operationTimeout = none) :
      KeyCourse config (i.events ++ [⟨.device .credential, .ok (some c)⟩, ⟨.clock, now⟩])
        (.error (.client (.longTimeout .requestNonce config.operationTimeout))) ⟨some c, none⟩
  | ungranted {i : KeyIdentity} (hi : i.Complete) {c : Credential} {now deadline : Duration}
      (hd : deadline? now config.operationTimeout = some deadline) {reply : Reply} {error : Error}
      (h : fault config ⟨.send (.requestNonce i.registrationId i.body c) deadline, reply⟩ =
        some error) :
      KeyCourse config
        (i.events ++ [⟨.device .credential, .ok (some c)⟩, ⟨.clock, now⟩,
          ⟨.send (.requestNonce i.registrationId i.body c) deadline, reply⟩])
        (.error error) ⟨some c, none⟩
  | unimported (g : Grant config) {error : Error} :
      KeyCourse config (g.events ++ [⟨.device (.importKey g.key), .error error⟩])
        (.error error) ⟨some g.credential, none⟩
  | imported (g : Grant config) {events : List Event} {result : Except Error Outcome}
      {token : Option String} (h : AfterImport g events result token) :
      KeyCourse config (g.events ++ ⟨.device (.importKey g.key), .ok ()⟩ :: events) result
        ⟨some g.credential, token⟩

/-! ### Every handshake takes one of these courses -/

variable {config : Config} {events : List Event} {a b : Authorization}

theorem keyIdentity_cases (config : Config) {result : Except Error KeyIdentity}
    (h : keyIdentity.Yields a events result b) :
    b = a ∧ ((∃ i : KeyIdentity, i.Complete ∧ events = i.events ∧ result = .ok i) ∨
      ∃ error, Unidentified config events error ∧ result = .error error) := by
  rcases yields_required_bind_iff.mp h with
    ⟨answer, e, hask, hfault, rfl⟩ | ⟨id, a₁, before₁, rest₁, rfl, hask, hid, hrest⟩
  · obtain ⟨rfl, rfl⟩ := yields_registrationId_iff.mp hask
    exact ⟨rfl, Or.inr ⟨e, .nameless (failure?_eq_some_iff.mpr hfault), rfl⟩⟩
  obtain ⟨rfl, rfl⟩ := yields_registrationId_iff.mp hask
  have hid' : id ≠ "" := by simpa using hid
  rcases yields_required_bind_iff.mp hrest with
    ⟨answer, e, hask₂, hfault, rfl⟩ | ⟨ek, a₂, before₂, rest₂, rfl, hask₂, hek, hrest₂⟩
  · obtain ⟨rfl, rfl⟩ := yields_endorsementKey_iff.mp hask₂
    exact ⟨rfl, Or.inr ⟨e, .unendorsed hid' (failure?_eq_some_iff.mpr hfault), rfl⟩⟩
  obtain ⟨rfl, rfl⟩ := yields_endorsementKey_iff.mp hask₂
  have hek' : ek ≠ [] := by simpa using hek
  rcases yields_required_bind_iff.mp hrest₂ with
    ⟨answer, e, hask₃, hfault, rfl⟩ | ⟨srk, a₃, before₃, rest₃, rfl, hask₃, hsrk, hrest₃⟩
  · obtain ⟨rfl, rfl⟩ := yields_storageRootKey_iff.mp hask₃
    exact ⟨rfl, Or.inr ⟨e, .rootless hid' hek' (failure?_eq_some_iff.mpr hfault), rfl⟩⟩
  obtain ⟨rfl, rfl⟩ := yields_storageRootKey_iff.mp hask₃
  have hsrk' : srk ≠ [] := by simpa using hsrk
  obtain ⟨rfl, rfl, rfl⟩ := yields_pure_iff.mp hrest₃
  exact ⟨rfl, Or.inl ⟨⟨id, ek, srk⟩, ⟨hid', hek', hsrk'⟩, rfl, rfl⟩⟩

theorem keyIdentity_error (config : Config) {error : Error}
    (h : keyIdentity.Yields a events (.error error) b) :
    b = a ∧ Unidentified config events error := by
  obtain ⟨rfl, ⟨i, -, -, hi⟩ | ⟨e, hfails, he⟩⟩ := keyIdentity_cases config h
  · exact nomatch hi
  · obtain rfl := Except.error.inj he
    exact ⟨rfl, hfails⟩

theorem keyIdentity_ok (config : Config) {i : KeyIdentity}
    (h : keyIdentity.Yields a events (.ok i) b) :
    b = a ∧ i.Complete ∧ events = i.events := by
  obtain ⟨rfl, ⟨j, hj, rfl, hi⟩ | ⟨e, -, he⟩⟩ := keyIdentity_cases config h
  · obtain rfl := Except.ok.inj hi
    exact ⟨rfl, hj, rfl⟩
  · exact nomatch he

/-- A signature makes a token unless there is nothing in it. -/
theorem runs_signed {scope : String} {expiry : Nat} {result : Except Error String}
    (h : Runs (Token.signed (fun data ↦ query (.device (.sign data))) scope expiry) events
      result) :
    ∃ answer : Except Error Bytes,
      events = [⟨.device (.sign (Token.signingInput scope expiry)), answer⟩] ∧
        result = (checked List.isEmpty (.client .emptySignature) answer).bind
          (Token.ofSignature scope expiry) := by
  obtain ⟨answer, rest, rfl, hrest⟩ := runs_query_bind_iff.mp h
  refine ⟨answer, ?_⟩
  cases answer with
  | error e =>
    obtain ⟨rfl, rfl⟩ := runs_pure_iff.mp hrest
    exact ⟨rfl, rfl⟩
  | ok signature =>
    obtain ⟨rfl, rfl⟩ := runs_pure_iff.mp hrest
    refine ⟨rfl, ?_⟩
    by_cases hs : signature.isEmpty = true <;> simp [checked, Except.bind, Token.ofSignature, hs]

theorem signedToken_cases {registrationId : String} {result : Except Error String}
    (h : (signedToken config registrationId).Yields a events result b) :
    b = a ∧ ((∃ t : TokenMade config registrationId, events = t.events ∧ result = .ok t.token) ∨
      ∃ error, Untokened config registrationId events error ∧ result = .error error) := by
  rcases yields_bind_iff.mp h with ⟨e, hrun, rfl⟩ | ⟨scope, a₁, before₁, rest₁, rfl, hrun, hrest⟩
  · obtain ⟨rfl, hscope, rfl⟩ := yields_ofResult_iff.mp hrun
    exact ⟨rfl, Or.inr ⟨e, .unscoped hscope.symm, rfl⟩⟩
  obtain ⟨rfl, hscope, rfl⟩ := yields_ofResult_iff.mp hrun
  rcases yields_bind_iff.mp hrest with
    ⟨e, hrun₂, rfl⟩ | ⟨expiry, a₂, before₂, rest₂, rfl, hrun₂, hrest₂⟩
  · obtain ⟨now, rfl, hdate, rfl⟩ := yields_expiry_iff.mp hrun₂
    exact ⟨rfl, Or.inr ⟨e, .undated hscope.symm (failure?_eq_some_iff.mpr hdate.symm), rfl⟩⟩
  obtain ⟨now, rfl, hdate, rfl⟩ := yields_expiry_iff.mp hrun₂
  obtain ⟨hsign, rfl⟩ := yields_ofProgram_iff.mp hrest₂
  obtain ⟨answer, rfl, rfl⟩ := runs_signed hsign
  refine ⟨rfl, ?_⟩
  cases hanswer : checked List.isEmpty (.client .emptySignature) answer with
  | error e =>
    exact Or.inr ⟨e, .unsigned hscope.symm hdate.symm (failure?_eq_some_iff.mpr hanswer), rfl⟩
  | ok signature =>
    obtain ⟨rfl, hne⟩ := checked_eq_ok_iff.mp hanswer
    have hs : signature ≠ [] := by simpa using hne
    obtain ⟨token, htoken⟩ : ∃ token, Token.ofSignature scope expiry signature = .ok token := by
      simp [Token.ofSignature, hne]
    exact Or.inl
      ⟨⟨scope, hscope.symm, now, expiry, hdate.symm, signature, hs, token, htoken⟩, rfl, htoken⟩

theorem afterImport_cases (g : Grant config) {result : Except Error Outcome}
    (h : (do
      let token ← signedToken config g.identity.registrationId
      modify fun a ↦ { a with bearerToken := some token }
      call config.operationTimeout (g.registerCall token) Outcome.ofBytes : Session Outcome).Yields
        ⟨some g.credential, none⟩ events result b) :
    ∃ token, b = ⟨some g.credential, token⟩ ∧ AfterImport g events result token := by
  rcases yields_bind_iff.mp h with ⟨e, hrun, rfl⟩ | ⟨token, a₁, before₁, rest₁, rfl, hrun, hrest⟩
  · obtain ⟨rfl, ⟨t, -, ht⟩ | ⟨error, hfails, herror⟩⟩ := signedToken_cases hrun
    · exact nomatch ht
    · obtain rfl := Except.error.inj herror
      exact ⟨none, rfl, .untokened hfails⟩
  obtain ⟨rfl, ⟨t, rfl, ht⟩ | ⟨error, -, herror⟩⟩ := signedToken_cases hrun
  · obtain rfl := Except.ok.inj ht
    rcases yields_bind_iff.mp hrest with
      ⟨e, hrun₂, rfl⟩ | ⟨_, a₂, before₂, rest₂, rfl, hrun₂, hrest₂⟩
    · exact nomatch (yields_modify_iff.mp hrun₂).2.1
    obtain ⟨rfl, -, rfl⟩ := yields_modify_iff.mp hrun₂
    obtain ⟨rfl, now, ⟨hd, rfl, rfl⟩ | ⟨deadline, reply, hd, rfl, rfl⟩⟩ := yields_call_iff.mp hrest₂
    · exact ⟨some t.token, rfl, .untimed t hd⟩
    · exact ⟨some t.token, rfl, .called t hd⟩
  · exact nomatch herror

theorem registerByKey_course {result : Except Error Outcome}
    (h : (registerByKey config).Yields .empty events result b) :
    KeyCourse config events result b := by
  rcases yields_bind_iff.mp h with ⟨e, hrun, rfl⟩ | ⟨i, a₁, before₁, rest₁, rfl, hrun, hrest⟩
  · obtain ⟨rfl, hfails⟩ := keyIdentity_error config hrun
    exact .unidentified hfails
  obtain ⟨rfl, hi, rfl⟩ := keyIdentity_ok config hrun
  rcases yields_bind_iff.mp hrest with
    ⟨e, hrun₂, rfl⟩ | ⟨c, a₂, before₂, rest₂, rfl, hrun₂, hrest₂⟩
  · obtain ⟨rfl, answer, rfl, hheld⟩ := yields_credential_error hrun₂
    exact .bare hi (failure?_eq_some_iff.mpr hheld)
  obtain ⟨rfl, rfl⟩ := yields_credential_ok hrun₂
  rcases yields_bind_iff.mp hrest₂ with
    ⟨e, hrun₃, rfl⟩ | ⟨key, a₃, before₃, rest₃, rfl, hrun₃, hrest₃⟩
  · obtain ⟨rfl, now, ⟨hd, rfl, he⟩ | ⟨deadline, reply, hd, rfl, he⟩⟩ := yields_call_iff.mp hrun₃
    · obtain rfl := Except.error.inj he
      exact .untimed hi hd
    · exact .ungranted hi hd (failure?_eq_some_iff.mpr he.symm)
  obtain ⟨rfl, now, ⟨-, -, he⟩ | ⟨deadline, reply, hd, rfl, hkey⟩⟩ := yields_call_iff.mp hrun₃
  · exact nomatch he
  let g : Grant config := ⟨i, hi, c, now, deadline, hd, reply, key, hkey.symm⟩
  have hgrant (rest : List Event) :
      i.events ++ ([⟨.device .credential, .ok (some c)⟩] ++
        ([⟨.clock, now⟩, ⟨.send (.requestNonce i.registrationId i.body c) deadline, reply⟩] ++
          rest)) = g.events ++ rest := by
    simp [Grant.events, Grant.request, g]
  rw [hgrant]
  rcases yields_bind_iff.mp hrest₃ with
    ⟨e, hrun₄, rfl⟩ | ⟨_, a₄, before₄, rest₄, rfl, hrun₄, hrest₄⟩
  · obtain ⟨rfl, rfl⟩ := yields_importKey_iff.mp hrun₄
    exact .unimported g
  · obtain ⟨rfl, rfl⟩ := yields_importKey_iff.mp hrun₄
    obtain ⟨token, rfl, hafter⟩ := afterImport_cases g hrest₄
    exact .imported g hafter

/-! ### Handshakes put together -/

theorem KeyIdentity.Complete.yields {i : KeyIdentity} (hi : i.Complete) (a : Authorization) :
    keyIdentity.Yields a i.events (.ok i) a := by
  have hid : i.registrationId.isEmpty = false := by simpa using hi.registrationId
  have hek : i.endorsementKey.isEmpty = false := by simpa using hi.endorsementKey
  have hsrk : i.storageRootKey.isEmpty = false := by simpa using hi.storageRootKey
  exact (yields_required_of (yields_registrationId_iff.mpr ⟨rfl, rfl⟩) hid).andThen
    ((yields_required_of (yields_endorsementKey_iff.mpr ⟨rfl, rfl⟩) hek).andThen
      ((yields_required_of (yields_storageRootKey_iff.mpr ⟨rfl, rfl⟩) hsrk).andThen
        (yields_pure_iff.mpr ⟨rfl, rfl, rfl⟩)))

theorem TokenMade.yields {registrationId : String} (t : TokenMade config registrationId)
    (a : Authorization) :
    (signedToken config registrationId).Yields a t.events (.ok t.token) a := by
  have hscope : (ofResult (Token.scope config.idScope registrationId)).Yields a []
      (.ok t.scope) a :=
    yields_ofResult_iff.mpr ⟨rfl, t.inScope.symm, rfl⟩
  have hdate : (Session.expiry config.tokenTtl).Yields a [⟨.epoch, t.now⟩] (.ok t.expiry) a :=
    yields_expiry_iff.mpr ⟨t.now, rfl, t.dated.symm, rfl⟩
  have hsigned : Runs (Token.signed (fun data ↦ query (.device (.sign data))) t.scope t.expiry)
      [⟨.device (.sign (Token.signingInput t.scope t.expiry)), .ok t.signature⟩] (.ok t.token) := by
    rw [← t.written]
    exact .ask _ _ (.done _)
  exact hscope.andThen (hdate.andThen (yields_ofProgram_iff.mpr ⟨hsigned, rfl⟩))

theorem Grant.yields_key (g : Grant config) (a : Authorization) :
    (call config.operationTimeout g.request nonceKey).Yields a
      [⟨.clock, g.now⟩, ⟨.send g.request g.deadline, g.reply⟩] (.ok g.key) a :=
  yields_call_iff.mpr ⟨rfl, g.now, Or.inr ⟨g.deadline, g.reply, g.inTime, rfl, g.brings.symm⟩⟩

/-- A nonce that is not handed out ends the handshake. -/
theorem registerByKey_ungranted {i : KeyIdentity} (hi : i.Complete) (c : Credential)
    {now deadline : Duration} (hd : deadline? now config.operationTimeout = some deadline)
    {reply : Reply} {error : Error}
    (h : answered config.operationTimeout (.requestNonce i.registrationId i.body c) nonceKey reply =
      .error error) :
    (registerByKey config).Yields .empty
      (i.events ++ [⟨.device .credential, .ok (some c)⟩, ⟨.clock, now⟩,
        ⟨.send (.requestNonce i.registrationId i.body c) deadline, reply⟩])
      (.error error) ⟨some c, none⟩ := by
  have hcall : (call config.operationTimeout (.requestNonce i.registrationId i.body c)
      nonceKey).Yields ⟨some c, none⟩ [⟨.clock, now⟩,
        ⟨.send (.requestNonce i.registrationId i.body c) deadline, reply⟩] (.error error)
        ⟨some c, none⟩ :=
    yields_call_iff.mpr ⟨rfl, now, Or.inr ⟨deadline, reply, hd, rfl, h.symm⟩⟩
  exact (hi.yields .empty).andThen ((yields_credential_some _ c .empty).andThen hcall.stop)

theorem Grant.registerByKey_called (g : Grant config)
    (t : TokenMade config g.identity.registrationId) {now deadline : Duration}
    (hd : deadline? now config.operationTimeout = some deadline) (reply : Reply) :
    (registerByKey config).Yields .empty
      (g.events ++ ⟨.device (.importKey g.key), .ok ()⟩ ::
        (t.events ++ [⟨.clock, now⟩, ⟨.send (g.registerCall t.token) deadline, reply⟩]))
      (answered config.operationTimeout (g.registerCall t.token) Outcome.ofBytes reply)
      ⟨some g.credential, some t.token⟩ := by
  have hcall : (call config.operationTimeout (g.registerCall t.token) Outcome.ofBytes).Yields
      ⟨some g.credential, some t.token⟩
      [⟨.clock, now⟩, ⟨.send (g.registerCall t.token) deadline, reply⟩]
      (answered config.operationTimeout (g.registerCall t.token) Outcome.ofBytes reply)
      ⟨some g.credential, some t.token⟩ :=
    yields_call_iff.mpr ⟨rfl, now, Or.inr ⟨deadline, reply, hd, rfl, rfl⟩⟩
  have hevents : g.events ++ ⟨.device (.importKey g.key), .ok ()⟩ ::
        (t.events ++ [⟨.clock, now⟩, ⟨.send (g.registerCall t.token) deadline, reply⟩]) =
      g.identity.events ++ ([⟨.device .credential, .ok (some g.credential)⟩] ++
        ([⟨.clock, g.now⟩, ⟨.send g.request g.deadline, g.reply⟩] ++
          ([⟨.device (.importKey g.key), .ok ()⟩] ++ (t.events ++ ([] ++
            [⟨.clock, now⟩, ⟨.send (g.registerCall t.token) deadline, reply⟩]))))) := by
    simp [Grant.events]
  rw [hevents]
  exact (g.complete.yields .empty).andThen ((yields_credential_some _ _ _).andThen
    ((g.yields_key _).andThen ((yields_importKey_iff.mpr ⟨rfl, rfl⟩).andThen
      ((t.yields _).andThen ((yields_modify_iff.mpr ⟨rfl, rfl, rfl⟩).andThen hcall)))))

end Enrollment
