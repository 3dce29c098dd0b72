import Enrollment.Proofs.AttemptCalls
namespace Enrollment

/-!
# Where the tokens of an attempt come from

Whatever an attempt has signed, it has signed after the import of the key that
its own nonce reply handed out, and every token that it shows is made of such a
signature.
-/

open Program

variable {config : Config} {mechanism : Mechanism} {events : List Event}
  {result : Except Error Outcome} {left : Authorization}

/-- The device is handed out this key, imports it, and is then asked to sign for
this scope and expiry. -/
def SignedFor (config : Config) (events : List Event) (key : Bytes) (scope : String)
    (expiry : Nat) (answer : Except Error Bytes) : Prop :=
  ∃ (first : List Event) (g : Grant config) (now : Option Duration) (after : List Event),
    g.key = key ∧ Token.expiry now config.tokenTtl = .ok expiry ∧
    events = first ++ g.events ++ ⟨.device (.importKey g.key), .ok ()⟩ :: ⟨.epoch, now⟩ ::
      ⟨.device (.sign (Token.signingInput scope expiry)), answer⟩ :: after

/-- A token is made of what was signed. -/
def TokenFrom (config : Config) (events : List Event) (token : String) : Prop :=
  ∃ key scope expiry signature, SignedFor config events key scope expiry (.ok signature) ∧
    Token.ofSignature scope expiry signature = .ok token

theorem SignedFor.within {key : Bytes} {scope : String} {expiry : Nat}
    {answer : Except Error Bytes} (h : SignedFor config events key scope expiry answer)
    (before last : List Event) :
    SignedFor config (before ++ (events ++ last)) key scope expiry answer := by
  obtain ⟨first, g, now, after, hkey, hexpiry, rfl⟩ := h
  exact ⟨before ++ first, g, now, after ++ last, hkey, hexpiry, by simp⟩

theorem TokenFrom.within {token : String} (h : TokenFrom config events token)
    (before last : List Event) : TokenFrom config (before ++ (events ++ last)) token := by
  obtain ⟨key, scope, expiry, signature, hsigned, htoken⟩ := h
  exact ⟨key, scope, expiry, signature, hsigned.within before last, htoken⟩

/-! ### Registrations -/

theorem KeyCourse.signedFor (h : KeyCourse config events result left) {data : Bytes}
    {answer : Except Error Bytes} (hmem : ⟨.device (.sign data), answer⟩ ∈ events) :
    ∃ key scope expiry, data = Token.signingInput scope expiry ∧
      SignedFor config events key scope expiry answer := by
  obtain ⟨g, scope, now, expiry, -, hexpiry, rfl, after, rfl⟩ := h.grant_of_sign hmem
  exact ⟨g.key, scope, expiry, rfl, [], g, now, after, rfl, hexpiry, by simp⟩

theorem KeyCourse.tokenFrom (h : KeyCourse config events result left) {id : String}
    {body : Bytes} {c : Credential} {token : String}
    (hmem : .authenticate id body c (some token) ∈ calls events) :
    TokenFrom config events token := by
  rcases h.calls_cases with hnone | ⟨i, credential, -, -, hone⟩ | ⟨g, t, ⟨after, rfl⟩, hboth⟩
  · simp [hnone] at hmem
  · simp [hone] at hmem
  · rw [hboth] at hmem
    have hcall : .authenticate id body c (some token) = g.registerCall t.token := by
      simpa [Grant.request] using hmem
    obtain rfl : token = t.token := Option.some.inj (Call.authenticate.inj hcall).2.2.2
    refine ⟨g.key, t.scope, t.expiry, t.signature, ⟨[], g, t.now, after, rfl, t.dated, ?_⟩,
      t.written⟩
    simp [TokenMade.events]

theorem Registration.signedFor (h : Registration config mechanism events result left)
    {data : Bytes} {answer : Except Error Bytes}
    (hmem : ⟨.device (.sign data), answer⟩ ∈ events) :
    ∃ key scope expiry, data = Token.signingInput scope expiry ∧
      SignedFor config events key scope expiry answer := by
  cases h with
  | refused h => exact nomatch hmem
  | byKey h => exact h.signedFor hmem
  | byCertificate h => cases h <;> simp at hmem

theorem Registration.tokenFrom (h : Registration config mechanism events result left)
    {id : String} {body : Bytes} {c : Credential} {token : String}
    (hmem : .authenticate id body c (some token) ∈ calls events) :
    TokenFrom config events token := by
  cases h with
  | refused h => exact nomatch hmem
  | byKey h => exact h.tokenFrom hmem
  | byCertificate h => cases h <;> simp at hmem

namespace Client

variable {c c' : Client} {n : Nat} {progress : Progress}

/-! ### The registration inside an attempt -/

/-- Before and after its registration an attempt asks for nothing that only a
registration needs. -/
structure Inside (c : Client) (events first registered last : List Event) : Prop where
  split : events = first ++ (registered ++ last)
  course : ∃ reply authorization,
    Registration c.config c.mechanism registered reply authorization
  first : topics first ⊆ .enter :: turnTopics
  last : topics last ⊆ .enter :: turnTopics

theorem AttemptParts.inside (h : AttemptParts c events) :
    ∃ first registered last, Inside c events first registered last := by
  have hquiet {events : List Event} (h : Quiet events) : topics events ⊆ .enter :: turnTopics :=
    List.Subset.trans h (by decide)
  cases h with
  | settled hfirst hregister hlast =>
    exact ⟨_, _, _, rfl, ⟨_, _, hregister⟩, hquiet hfirst, hquiet hlast⟩
  | @polled first registered middle polls last _ _ _ _ _ hfirst hregister hoperation hmiddle
      hturns hlast =>
    have hpolls : topics polls ⊆ .enter :: turnTopics :=
      List.Subset.trans hturns.topics_subset (List.subset_cons_self _ _)
    refine ⟨_, _, _, rfl, ⟨_, _, hregister⟩, hquiet hfirst, ?_⟩
    rw [topics_append, topics_append]
    exact List.append_subset.mpr
      ⟨hquiet hmiddle, List.append_subset.mpr ⟨hpolls, hquiet hlast⟩⟩

theorem Inside.mem {first registered last : List Event}
    (h : Inside c events first registered last) {e : Event} (hmem : e ∈ events)
    (htopic : e.query.topic ∉ Topic.enter :: turnTopics) : e ∈ registered := by
  rw [h.split, List.mem_append, List.mem_append] at hmem
  rcases hmem with hmem | hmem | hmem
  · exact absurd (h.first (topic_mem hmem)) htopic
  · exact hmem
  · exact absurd (h.last (topic_mem hmem)) htopic

/-! ### Attempts -/

theorem AttemptParts.signedFor (h : AttemptParts c events) {data : Bytes}
    {answer : Except Error Bytes} (hmem : ⟨.device (.sign data), answer⟩ ∈ events) :
    ∃ key scope expiry, data = Token.signingInput scope expiry ∧
      SignedFor c.config events key scope expiry answer := by
  obtain ⟨first, registered, last, hinside⟩ := h.inside
  obtain ⟨reply, authorization, hcourse⟩ := hinside.course
  have hsign : Topic.sign ∉ Topic.enter :: turnTopics := by decide
  obtain ⟨key, scope, expiry, hdata, hsigned⟩ := hcourse.signedFor (hinside.mem hmem hsign)
  rw [hinside.split]
  exact ⟨key, scope, expiry, hdata, hsigned.within first last⟩

/-- Whatever token a call bears, the register call has borne. -/
theorem CallsAgree.registerCall_mem (h : CallsAgree config mechanism events) {request : Call}
    {token : String} (hmem : request ∈ calls events) (htoken : request.bearerToken = some token) :
    ∃ id body credential, .authenticate id body credential (some token) ∈ calls events := by
  cases request with
  | requestNonce id body credential => exact nomatch htoken
  | authenticate id body credential bearer =>
    obtain rfl : bearer = some token := htoken
    exact ⟨id, body, credential, hmem⟩
  | getStatus operationId id credential bearer =>
    obtain rfl : bearer = some token := htoken
    cases mechanism with
    | symmetricKey =>
      obtain ⟨text, id', body, credential', htext, hregister⟩ := h.byKey rfl _ _ _ _ hmem
      obtain rfl := Option.some.inj htext
      exact ⟨id', body, credential', hregister⟩
    | x509 => exact nomatch (h.byCertificate rfl _ hmem).2

/-- All calls of an attempt bear the one token that it has made. -/
theorem AttemptParts.tokenFrom (h : AttemptParts c events) {request : Call} {token : String}
    (hmem : request ∈ calls events) (htoken : request.bearerToken = some token) :
    TokenFrom c.config events token := by
  obtain ⟨id, body, credential, hcall⟩ := h.callsAgree.registerCall_mem hmem htoken
  obtain ⟨first, registered, last, hinside⟩ := h.inside
  obtain ⟨reply, authorization, hcourse⟩ := hinside.course
  obtain ⟨deadline, answer, hsend⟩ := mem_calls_iff.mp hcall
  have hregister : Topic.call .authenticate ∉ Topic.enter :: turnTopics := by decide
  have hin := hinside.mem hsend hregister
  rw [hinside.split]
  exact (hcourse.tokenFrom (mem_calls_iff.mpr ⟨deadline, answer, hin⟩)).within first last

end Client
end Enrollment
