import Enrollment.Proofs.Base64
import Enrollment.Proofs.KeyCourse
namespace Enrollment

/-!
# The discipline of a registration by key

Whatever the device and the service answer, a registration by key under a valid
configuration asks its questions in one order, each only after those before it
were answered well, ends with the first answer that was not, and keeps the
credential and the token just when they went out with a call.
-/

open Program Session

variable {config : Config} {events : List Event} {result : Except Error Outcome}
  {left : Authorization}

def keyTopics : List Topic := keySteps ++ [.call .authenticate]

structure KeyDiscipline (config : Config) (events : List Event) (result : Except Error Outcome)
    (left : Authorization) : Prop where
  order : topics events <+: keyTopics
  operations :
    (calls events).map Call.operation ∈ [[], [.requestNonce], [.requestNonce, .authenticate]]
  /-- A nonce is asked for with a whole identity and a credential. -/
  nonce : ∀ id body c, .requestNonce id body c ∈ calls events →
    ∃ i : KeyIdentity, i.Complete ∧ id = i.registrationId ∧ body = i.body ∧
      i.events ++ [⟨.device .credential, .ok (some c)⟩] <+: events
  importedOnce : (topics events).count .importKey ≤ 1
  /-- What is imported is what the reply just before it says in base64. -/
  imported : ∀ key answer, ⟨.device (.importKey key), answer⟩ ∈ events →
    key ≠ [] ∧ ∃ before request deadline reply body,
      before ++ [⟨.send request deadline, reply⟩, ⟨.device (.importKey key), answer⟩] <+: events ∧
      request.operation = .requestNonce ∧
      reply.body .requestNonce config.operationTimeout = .ok body ∧
      authenticationKey body = .ok (Base64.encode key) ∧ nonceKey body = .ok key
  signed : ∀ data answer, ⟨.device (.sign data), answer⟩ ∈ events →
    ∃ before key now, before ++ [⟨.device (.importKey key), .ok ()⟩, ⟨.epoch, now⟩,
      ⟨.device (.sign data), answer⟩] <+: events
  /-- A register call repeats what the nonce was asked for with, and bears the
  token that was just made. -/
  authenticated : ∀ id body c token, .authenticate id body c token ∈ calls events →
    .requestNonce id body c ∈ calls events ∧
    ∃ before scope expiry signature text,
      before ++ [⟨.device (.sign (Token.signingInput scope expiry)), .ok signature⟩] <+: events ∧
      signature ≠ [] ∧ Token.ofSignature scope expiry signature = .ok text ∧ token = some text
  /-- An answer that is no good ends the registration, with its own error. -/
  ends : ∀ before e after error, events = before ++ e :: after → fault config e = some error →
    after = [] ∧ result = .error error
  /-- Only such an answer makes the registration fail, or else an id, or a scope,
  that no token can be made for. -/
  cause : ∀ error, result = .error error →
    (∃ before e, events = before ++ [e] ∧ fault config e = some error) ∨
      ∃ (i : KeyIdentity) (before : List Event) (key : Bytes), i.events <+: before ∧
        events = before ++ [⟨.device (.importKey key), .ok ()⟩] ∧
        Token.scope config.idScope i.registrationId = .error error
  completed : ∀ outcome, result = .ok outcome → topics events = keyTopics
  bearer : ∀ token, left.bearerToken = some token ↔
    ∃ id body c, .authenticate id body c (some token) ∈ calls events
  credential : ∀ c, left.credential = some c ↔ ⟨.device .credential, .ok (some c)⟩ ∈ events
  credentialSent : ∀ c, left.credential = some c ↔
    ∃ id body, .requestNonce id body c ∈ calls events

/-! ### From the course of a handshake to its discipline -/

theorem authenticationKey_ne_empty {body : Bytes} {encoded : String}
    (h : authenticationKey body = .ok encoded) : encoded ≠ "" := by
  unfold authenticationKey at h
  cases hreply : NonceReply.ofBytes? body with
  | none => simp [hreply] at h
  | some reply =>
    simp only [hreply] at h
    unfold NonceReply.key at h
    split at h
    · rename_i key hkey
      obtain rfl := Except.ok.inj h
      have hne := (Option.filter_eq_some_iff.mp hkey).2
      simpa using hne
    · split at h <;> exact nomatch h

/-- A key that is handed out is not empty, and its text is the one text there is
for it. -/
theorem nonceKey_eq_ok {body key : Bytes} (h : nonceKey body = .ok key) :
    authenticationKey body = .ok (Base64.encode key) ∧ key ≠ [] := by
  unfold nonceKey at h
  cases hencoded : authenticationKey body with
  | error e => simp [hencoded] at h
  | ok encoded =>
    cases hkey : Base64.decode (Bytes.ofText encoded) with
    | error f => simp [hencoded, hkey] at h
    | ok found =>
      obtain rfl : found = key := by simpa [hencoded, hkey] using h
      obtain ⟨rfl, hne⟩ := Base64.eq_encode_of_decode_ofText hkey
      exact ⟨rfl, hne (authenticationKey_ne_empty hencoded)⟩

theorem Grant.reads (g : Grant config) :
    ∃ body, g.reply.body .requestNonce config.operationTimeout = .ok body ∧
      nonceKey body = .ok g.key :=
  answered_eq_ok_iff.mp g.brings

/-- A clock whose seconds always fit in so many bits. -/
def ClockFits (bits : Nat) (events : List Event) : Prop :=
  ∀ now : Duration, ⟨.clock, now⟩ ∈ events → now.secs < Nat.pow 2 bits

/-- A wait within the operation timeout, begun no later than that after a time that
fits, ends at a point in time. -/
theorem deadline?_within (hvalid : config.Valid) {t wait timeout : Duration}
    (ht : t.secs < Nat.pow 2 62) (hwait : wait ≤ config.operationTimeout)
    (htimeout : timeout ≤ config.operationTimeout) :
    deadline? (t + wait) timeout = some (t + wait + timeout) := by
  have hlimit : config.operationTimeout.nanos ≤ 365 * 24 * 60 * 60 * 1000000000 :=
    hvalid.bounded .operationTimeout
  have hwaited : wait.nanos ≤ config.operationTimeout.nanos := hwait
  have hwaits : timeout.nanos ≤ config.operationTimeout.nanos := htimeout
  apply if_pos
  change t.nanos / 1000000000 < 4611686018427387904 at ht
  change (t.nanos + wait.nanos + timeout.nanos) / 1000000000 < 9223372036854775808
  omega

theorem inTime_of_clockFits (hvalid : config.Valid) (h : ClockFits 62 events) :
    InTime config events := by
  intro now hnow
  have hdeadline : deadline? now config.operationTimeout = some _ :=
    deadline?_within hvalid (h now hnow) (Nat.zero_le _) (Nat.le_refl _)
  rw [hdeadline]
  exact nofun

theorem KeyCourse.operations_mem (h : KeyCourse config events result left) :
    (calls events).map Call.operation ∈ [[], [.requestNonce], [.requestNonce, .authenticate]] := by
  rcases h.calls_cases with hcalls | ⟨i, c, -, -, hcalls⟩ | ⟨g, t, -, hcalls⟩
  · simp [hcalls]
  · simp [hcalls, Call.operation]
  · simp [hcalls, Call.operation, Grant.request, Grant.registerCall]

theorem KeyCourse.nonce_of_mem (h : KeyCourse config events result left) {id : String}
    {body : Bytes} {c : Credential} (hmem : .requestNonce id body c ∈ calls events) :
    ∃ i : KeyIdentity, i.Complete ∧ id = i.registrationId ∧ body = i.body ∧
      i.events ++ [⟨.device .credential, .ok (some c)⟩] <+: events := by
  rcases h.calls_cases with hcalls | ⟨i, c', hi, hbefore, hcalls⟩ | ⟨g, t, hbefore, hcalls⟩
  · simp [hcalls] at hmem
  · obtain ⟨hid, hbody, rfl⟩ : id = i.registrationId ∧ body = i.body ∧ c = c' := by
      simpa [hcalls] using hmem
    exact ⟨i, hi, hid, hbody, hbefore⟩
  · obtain ⟨hid, hbody, rfl⟩ :
        id = g.identity.registrationId ∧ body = g.identity.body ∧ c = g.credential := by
      simpa [hcalls, Grant.request, Grant.registerCall] using hmem
    have hshown : g.identity.events ++ [⟨.device .credential, .ok (some g.credential)⟩] <+:
        g.events :=
      ⟨[⟨.clock, g.now⟩, ⟨.send g.request g.deadline, g.reply⟩], by simp [Grant.events]⟩
    exact ⟨g.identity, g.complete, hid, hbody,
      hshown.trans ((List.prefix_append _ _).trans hbefore)⟩

theorem KeyCourse.imported_of_mem (h : KeyCourse config events result left) {key : Bytes}
    {answer : Except Error Unit} (hmem : ⟨.device (.importKey key), answer⟩ ∈ events) :
    key ≠ [] ∧ ∃ before request deadline reply body,
      before ++ [⟨.send request deadline, reply⟩, ⟨.device (.importKey key), answer⟩] <+: events ∧
      request.operation = .requestNonce ∧
      reply.body .requestNonce config.operationTimeout = .ok body ∧
      authenticationKey body = .ok (Base64.encode key) ∧ nonceKey body = .ok key := by
  obtain ⟨g, rfl, hbefore⟩ := h.grant_of_importKey hmem
  obtain ⟨body, hbody, hkey⟩ := g.reads
  obtain ⟨hencoded, hne⟩ := nonceKey_eq_ok hkey
  refine ⟨hne, g.identity.events ++ [⟨.device .credential, .ok (some g.credential)⟩,
    ⟨.clock, g.now⟩], g.request, g.deadline, g.reply, body, ?_, rfl, hbody, hencoded, hkey⟩
  simpa [Grant.events] using hbefore

theorem KeyCourse.signed_of_mem (h : KeyCourse config events result left) {data : Bytes}
    {answer : Except Error Bytes} (hmem : ⟨.device (.sign data), answer⟩ ∈ events) :
    ∃ before key now, before ++ [⟨.device (.importKey key), .ok ()⟩, ⟨.epoch, now⟩,
      ⟨.device (.sign data), answer⟩] <+: events := by
  obtain ⟨g, scope, now, expiry, -, -, -, hbefore⟩ := h.grant_of_sign hmem
  exact ⟨g.events, g.key, now, hbefore⟩

theorem KeyCourse.authenticated_of_mem (h : KeyCourse config events result left) {id : String}
    {body : Bytes} {c : Credential} {token : Option String}
    (hmem : .authenticate id body c token ∈ calls events) :
    .requestNonce id body c ∈ calls events ∧
    ∃ before scope expiry signature text,
      before ++ [⟨.device (.sign (Token.signingInput scope expiry)), .ok signature⟩] <+: events ∧
      signature ≠ [] ∧ Token.ofSignature scope expiry signature = .ok text ∧ token = some text := by
  rcases h.calls_cases with hcalls | ⟨i, c', -, -, hcalls⟩ | ⟨g, t, hbefore, hcalls⟩
  · simp [hcalls] at hmem
  · simp [hcalls] at hmem
  · obtain ⟨hid, hbody, hc, htoken⟩ : id = g.identity.registrationId ∧ body = g.identity.body ∧
        c = g.credential ∧ token = some t.token := by
      simpa [hcalls, Grant.request, Grant.registerCall] using hmem
    have hsigned : g.events ++ [⟨.device (.importKey g.key), .ok ()⟩, ⟨.epoch, t.now⟩] ++
        [⟨.device (.sign (Token.signingInput t.scope t.expiry)), .ok t.signature⟩] <+: events := by
      simpa [TokenMade.events] using hbefore
    refine ⟨?_, _, t.scope, t.expiry, t.signature, t.token, hsigned, t.signed, t.written, htoken⟩
    rw [hcalls, hid, hbody, hc]
    exact List.mem_cons_self

/-- In a list of which only the last question may have failed, a failed one is
the last. -/
theorem last_of_fault {before after init : List Event} {e last : Event} {error : Error}
    (hevents : before ++ e :: after = init ++ [last]) (hclean : Clean config init)
    (he : fault config e = some error) : after = [] ∧ e = last := by
  rcases List.eq_nil_or_concat after with rfl | ⟨more, x, rfl⟩
  · obtain ⟨-, hlast⟩ := List.append_inj' hevents rfl
    exact ⟨rfl, List.head_eq_of_cons_eq hlast⟩
  · have hconcat : (before ++ e :: more) ++ [x] = init ++ [last] := by
      simpa using hevents
    have hinit : before ++ e :: more = init := (List.append_inj' hconcat rfl).1
    have hnone : fault config e = none := hclean e (by simp [← hinit])
    rw [hnone] at he
    exact nomatch he

theorem KeyCourse.ends (h : KeyCourse config events result left) (htime : InTime config events)
    {before after : List Event} {e : Event} {error : Error}
    (hevents : events = before ++ e :: after) (he : fault config e = some error) :
    after = [] ∧ result = .error error := by
  obtain ⟨init, last, hsplit, hclean, hlast⟩ := h.halts htime
  obtain ⟨rfl, rfl⟩ := last_of_fault (hevents.symm.trans hsplit) hclean he
  refine ⟨rfl, ?_⟩
  rcases hlast with hfault | ⟨g, scopeError, -, rfl, -, -⟩
  · exact failure?_eq_some_iff.mp (hfault.symm.trans he)
  · exact nomatch he

theorem KeyCourse.cause (h : KeyCourse config events result left) (htime : InTime config events)
    {error : Error} (herror : result = .error error) :
    (∃ before e, events = before ++ [e] ∧ fault config e = some error) ∨
      ∃ (i : KeyIdentity) (before : List Event) (key : Bytes), i.events <+: before ∧
        events = before ++ [⟨.device (.importKey key), .ok ()⟩] ∧
        Token.scope config.idScope i.registrationId = .error error := by
  obtain ⟨before, e, hevents, -, hfault | ⟨g, scopeError, rfl, rfl, hresult, hscope⟩⟩ :=
    h.halts htime
  · exact Or.inl ⟨before, e, hevents, by rw [hfault, herror, failure?_error]⟩
  · obtain rfl := Except.error.inj (herror.symm.trans hresult)
    exact Or.inr ⟨g.identity, g.events, g.key, List.prefix_append _ _, hevents, hscope⟩

theorem KeyCourse.completed (h : KeyCourse config events result left) {outcome : Outcome}
    (hok : result = .ok outcome) : topics events = keyTopics := by
  cases h with
  | imported g h =>
    cases h with
    | called t hd => rfl
    | _ => exact nomatch hok
  | _ => exact nomatch hok

/-! ### The discipline holds -/

theorem register_symmetricKey (hvalid : config.Valid) :
    register config .symmetricKey = registerByKey config := by
  show (ofResult config.validate >>= fun _ ↦ registerByKey config) = _
  rw [Config.validate_eq_ok_iff.mpr hvalid]
  rfl

/-- A registration by key keeps its discipline, whatever it is answered, as long
as the clock is not about to run out. -/
theorem registration_by_key_disciplined (hvalid : config.Valid)
    (hrun : (register config .symmetricKey).Yields .empty events result left)
    (hclock : ClockFits 62 events) : KeyDiscipline config events result left := by
  rw [register_symmetricKey hvalid] at hrun
  have hcourse : KeyCourse config events result left := registerByKey_course hrun
  have htime : InTime config events := inTime_of_clockFits hvalid hclock
  have hcount : keyTopics.count .importKey = 1 := by decide
  exact {
    order := hcourse.concludes.order
    operations := hcourse.operations_mem
    nonce := fun _ _ _ ↦ hcourse.nonce_of_mem
    importedOnce := hcount ▸ hcourse.concludes.order.sublist.count_le _
    imported := fun _ _ ↦ hcourse.imported_of_mem
    signed := fun _ _ ↦ hcourse.signed_of_mem
    authenticated := fun _ _ _ _ ↦ hcourse.authenticated_of_mem
    ends := fun _ _ _ _ ↦ hcourse.ends htime
    cause := fun _ ↦ hcourse.cause htime
    completed := fun _ ↦ hcourse.completed
    bearer := fun _ ↦ hcourse.bearer_iff htime
    credential := fun _ ↦ hcourse.credential_iff
    credentialSent := fun _ ↦ hcourse.credential_iff_nonce htime }

/-- Such a registration exists, and it gets as far as the last of its calls. -/
theorem registration_by_key_disciplined_granted :
    ∃ (config : Config) (events : List Event) (result : Except Error Outcome)
      (left : Authorization), config.Valid ∧
      (register config .symmetricKey).Yields .empty events result left ∧
      ClockFits 62 events ∧ topics events = keyTopics ∧
      KeyDiscipline config events result left := by
  let config : Config := .ofScope "0ne00000001" .https
  let p := (register config .symmetricKey).run.run .empty
  have hvalid : config.Valid := Config.valid_ofScope (by decide +kernel) .https
  have hrun : (register config .symmetricKey).Yields .empty (p.follow granted).1
      (p.follow granted).2.1 (p.follow granted).2.2 := runs_follow granted p
  have hclock : ClockFits 62 (p.follow granted).1 := by
    intro now hnow
    obtain rfl : now = .zero := answer_of_mem_follow hnow
    decide
  have htopics : topics (p.follow granted).1 = keyTopics := by decide +kernel
  exact ⟨config, _, _, _, hvalid, hrun, hclock, htopics,
    registration_by_key_disciplined hvalid hrun hclock⟩

end Enrollment
