import Enrollment.Proofs.AttemptResult
import Enrollment.Proofs.RegistrationCalls
namespace Enrollment.Client

/-!
# What the calls of an attempt carry

All calls of an attempt are bound to each other: by the id and the body of its
registration, by one credential, by the token and by the operation.  Only the id
of a status call is its own, and that call follows the reading of it.
-/

open Program Session

variable {c c' : Client} {p : Polling} {config : Config} {mechanism : Mechanism}
  {events : List Event} {result : Except Error Outcome} {turns : List Turn} {progress : Progress}

/-! ### The calls of the turns -/

/-- A call made to ask for the status, right after the id was read for it. -/
def SentToAsk (p : Polling) (before : List Event) (request : Call) : Prop :=
  ∃ id credential earlier now, request = statusCall p id credential ∧ id ≠ "" ∧
    p.authorization.credential = some credential ∧
    before = earlier ++ [⟨.device .registrationId, .ok id⟩, ⟨.clock, now⟩]

theorem SentToAsk.prepend {before : List Event} {request : Call} (h : SentToAsk p before request)
    (first : List Event) : SentToAsk p (first ++ before) request := by
  obtain ⟨id, credential, earlier, now, hrequest, hid, hcred, rfl⟩ := h
  exact ⟨id, credential, first ++ earlier, now, hrequest, hid, hcred, by simp⟩

theorem StatusCourse.eachSend {timeout : Duration} (h : StatusCourse p timeout events result) :
    EachSend (SentToAsk p) events := by
  cases h with
  | nameless h => exact .of_calls_eq_nil rfl
  | bare hid h => exact .of_calls_eq_nil rfl
  | untimed hid hcred h => exact .of_calls_eq_nil rfl
  | @called id hid credential hcred now deadline hd reply =>
    have hsent : SentToAsk p [⟨.device .registrationId, .ok id⟩, ⟨.clock, now⟩]
        (statusCall p id credential) := ⟨id, credential, [], now, rfl, hid, hcred, rfl⟩
    exact .concat deadline reply rfl (.of_calls_eq_nil rfl) hsent

theorem TurnCourse.eachSend {turn : Turn} (h : TurnCourse config p events turn) :
    EachSend (SentToAsk p) events := by
  cases h with
  | spent h => exact .of_calls_eq_nil rfl
  | @polled now later hleft asked result hask =>
    have hlooked : EachSend (SentToAsk p) [⟨.clock, now⟩,
        ⟨.sleep (min config.pollInterval (leftOver config p now)), ()⟩, ⟨.clock, later⟩] :=
      .of_calls_eq_nil rfl
    exact EachSend.append_iff.mpr
      ⟨hlooked, hask.eachSend.imp fun _ _ hsent ↦ hsent.prepend _⟩

theorem Turns.eachSend (h : Turns config p events turns) : EachSend (SentToAsk p) events := by
  induction h with
  | nil => exact .of_calls_eq_nil rfl
  | cons hturn hrest ih =>
    exact EachSend.append_iff.mpr
      ⟨hturn.eachSend, ih.imp fun _ _ hsent ↦ hsent.prepend _⟩

/-! ### All calls of an attempt -/

/-- What came before a call: to register, the one reading of the id; to ask for the
status, a reading of its own.  The credential was shown to the client. -/
structure SentInOrder (before : List Event) (request : Call) : Prop where
  named : request.registrationId ≠ ""
  read : request.operation ≠ .getStatus → reads before = [.ok request.registrationId]
  fresh : request.operation = .getStatus → ∃ earlier now, before =
    earlier ++ [⟨.device .registrationId, .ok request.registrationId⟩, ⟨.clock, now⟩]
  credential : ⟨.device .credential, .ok (some request.credential)⟩ ∈ before

structure CallsAgree (config : Config) (mechanism : Mechanism) (events : List Event) : Prop where
  sent : EachSend SentInOrder events
  /-- After a reading that failed or found nothing, nothing is sent until the next. -/
  unread : ∀ before answer between after,
    events = before ++ ⟨.device .registrationId, answer⟩ :: (between ++ after) →
      (∀ id, answer = .ok id → id = "") → reads between = [] → calls between = []
  registration : ∀ id body credential id' body' credential' token,
    .requestNonce id body credential ∈ calls events →
      .authenticate id' body' credential' token ∈ calls events → id' = id ∧ body' = body
  credentialOnce : (topics events).count .credential ≤ 1
  registeredOnce : (topics events).count (.call .authenticate) ≤ 1
  byKey : mechanism = .symmetricKey → ∀ operationId id credential token,
    .getStatus operationId id credential token ∈ calls events →
      ∃ text id' body' credential', token = some text ∧
        .authenticate id' body' credential' (some text) ∈ calls events
  byCertificate : mechanism = .x509 → ∀ request ∈ calls events,
    request.operation ≠ .requestNonce ∧ request.bearerToken = none
  operation : ∀ operationId id credential token,
    .getStatus operationId id credential token ∈ calls events →
      ∃ outcome, RegisterReply config events outcome ∧ outcome.operationId = some operationId

theorem reads_append (xs ys : List Event) : reads (xs ++ ys) = reads xs ++ reads ys :=
  List.filterMap_append

/-- The last reading before a call found the id that the call carries. -/
theorem SentInOrder.last_read {before : List Event} {request : Call}
    (h : SentInOrder before request) :
    (reads before).getLast? = some (.ok request.registrationId) := by
  by_cases hoperation : request.operation = .getStatus
  · obtain ⟨earlier, now, rfl⟩ := h.fresh hoperation
    have hlast : reads [⟨.device .registrationId, .ok request.registrationId⟩, ⟨.clock, now⟩] =
        [.ok request.registrationId] := rfl
    rw [reads_append, hlast, List.getLast?_concat]
  · rw [h.read hoperation]
    rfl

theorem calls_eq_nil_of_unread (h : EachSend SentInOrder events) {before between after : List Event}
    {answer : Except Error String}
    (hsplit : events = before ++ ⟨.device .registrationId, answer⟩ :: (between ++ after))
    (hanswer : ∀ id, answer = .ok id → id = "") (hnone : reads between = []) :
    calls between = [] := by
  apply List.eq_nil_iff_forall_not_mem.mpr
  intro request hmem
  obtain ⟨deadline, reply, hsend⟩ := mem_calls_iff.mp hmem
  obtain ⟨xs, ys, rfl⟩ := List.append_of_mem hsend
  have hsent := h (before ++ ⟨.device .registrationId, answer⟩ :: xs) request deadline reply
    (ys ++ after) (by simp [hsplit])
  have hxs : reads xs = [] := by
    rw [reads_append] at hnone
    exact (List.append_eq_nil_iff.mp hnone).1
  have hread : reads (⟨.device .registrationId, answer⟩ :: xs) = answer :: reads xs := rfl
  have hlast := hsent.last_read
  rw [reads_append, hread, hxs, List.getLast?_concat] at hlast
  exact hsent.named (hanswer _ (Option.some.inj hlast))

/-- Events that are neither calls nor questions to the device. -/
def Quiet (events : List Event) : Prop :=
  topics events ⊆ [.clock, .enter]

theorem Quiet.calls_eq_nil (h : Quiet events) : calls events = [] := by
  apply List.eq_nil_iff_forall_not_mem.mpr
  intro request hmem
  obtain ⟨deadline, reply, hsend⟩ := mem_calls_iff.mp hmem
  simpa [Query.topic] using h (topic_mem hsend)

theorem Quiet.reads_eq_nil (h : Quiet events) : reads events = [] := by
  apply List.filterMap_eq_nil_iff.mpr
  intro e hmem
  have htopic := h (topic_mem hmem)
  obtain ⟨query, answer⟩ := e
  cases query with
  | device query => cases query <;> simp [Query.topic, DeviceQuery.topic] at htopic
  | _ => rfl

theorem Quiet.count_eq_zero (h : Quiet events) {topic : Topic} (htopic : topic ∉ [.clock, .enter]) :
    (topics events).count topic = 0 := by
  apply List.count_eq_zero_of_not_mem
  exact fun hmem ↦ htopic (h hmem)

theorem quiet_announced (c : Client) (next : State) : Quiet (c.announced next) := by
  unfold announced Quiet
  by_cases h : c.state = next
  · rw [if_pos h]
    exact List.nil_subset _
  · rw [if_neg h]
    simp [topics, Query.topic]

/-- An attempt is a registration, and after one that leaves an operation to ask for
any number of turns. -/
inductive AttemptParts (c : Client) : List Event → Prop
  | settled {first registered last : List Event} {reply : Except Error Outcome}
      {authorization : Authorization} (hfirst : Quiet first)
      (hregister : Registration c.config c.mechanism registered reply authorization)
      (hlast : Quiet last) : AttemptParts c (first ++ (registered ++ last))
  | polled {first registered middle polls last : List Event} {outcome : Outcome} {id : String}
      {started : Duration} {authorization : Authorization} {turns : List Turn}
      (hfirst : Quiet first)
      (hregister : Registration c.config c.mechanism registered (.ok outcome) authorization)
      (hoperation : outcome.operationId = some id) (hmiddle : Quiet middle)
      (hturns : Turns c.config ⟨started, id, authorization⟩ polls turns) (hlast : Quiet last) :
      AttemptParts c (first ++ (registered ++ (middle ++ (polls ++ last))))

theorem AttemptCourse.parts {n : Nat} (h : AttemptCourse c n events progress c') :
    AttemptParts c events := by
  have hfirst (started : Duration) : Quiet (⟨.clock, started⟩ :: c.announced .registering) := by
    intro topic hmem
    rcases List.mem_cons.mp hmem with rfl | hrest
    · simp [Query.topic]
    · exact quiet_announced c .registering hrest
  have henter (state : State) : Quiet [⟨.enter state, ()⟩] := by
    simp [Quiet, topics, Query.topic]
  have hnil : Quiet [] := List.nil_subset _
  cases h with
  | @settled started registered _ found _ hregister hsettles =>
    have hparts := AttemptParts.settled (hfirst started) (register_course hregister)
      (henter (finalState found))
    simpa using hparts
  | @decided started registered polls _ _ _ _ found hregister hpending hturns hall =>
    have hparts := AttemptParts.polled (hfirst started) (register_course hregister)
      hpending.operation (henter .assigning) hturns (henter (finalState found))
    simpa using hparts
  | @undecided started registered polls _ _ _ _ hregister hpending hturns hall =>
    have hparts := AttemptParts.polled (hfirst started) (register_course hregister)
      hpending.operation (henter .assigning) hturns hnil
    simpa using hparts

theorem inOrder_of_register {first before : List Event} {request : Call}
    (h : SentToRegister before request) (hfirst : reads first = []) :
    SentInOrder (first ++ before) request where
  named := h.named
  read := by
    intro _
    rw [reads_append, hfirst, h.read]
    rfl
  fresh := fun hoperation ↦ absurd hoperation h.operation
  credential := List.mem_append_right _ h.credential

theorem inOrder_of_ask {earlier before : List Event} {request : Call}
    (h : SentToAsk p before request)
    (hcred : ∀ c, p.authorization.credential = some c →
      ⟨.device .credential, .ok (some c)⟩ ∈ earlier) :
    SentInOrder (earlier ++ before) request := by
  obtain ⟨id, credential, between, now, rfl, hid, hc, rfl⟩ := h
  exact {
    named := hid
    read := fun hoperation ↦ absurd rfl hoperation
    fresh := fun _ ↦ ⟨earlier ++ between, now, by simp [Call.registrationId, statusCall]⟩
    credential := List.mem_append_left _ (hcred credential hc) }

theorem AttemptParts.sent (h : AttemptParts c events) : EachSend SentInOrder events := by
  cases h with
  | @settled first registered last _ _ hfirst hregister hlast =>
    refine EachSend.append_iff.mpr ⟨.of_calls_eq_nil hfirst.calls_eq_nil, ?_⟩
    refine EachSend.append_of_calls_eq_nil ?_ hlast.calls_eq_nil
    exact hregister.eachSend.imp fun _ _ hsent ↦ inOrder_of_register hsent hfirst.reads_eq_nil
  | @polled first registered middle polls last _ id started authorization _ hfirst hregister
      hoperation hmiddle hturns hlast =>
    refine EachSend.append_iff.mpr ⟨.of_calls_eq_nil hfirst.calls_eq_nil, ?_⟩
    refine EachSend.append_iff.mpr ⟨?_, ?_⟩
    · exact hregister.eachSend.imp fun _ _ hsent ↦ inOrder_of_register hsent hfirst.reads_eq_nil
    · refine EachSend.append_iff.mpr ⟨.of_calls_eq_nil hmiddle.calls_eq_nil, ?_⟩
      refine EachSend.append_of_calls_eq_nil ?_ hlast.calls_eq_nil
      intro before request deadline reply after hsplit
      have hsent := hturns.eachSend before request deadline reply after hsplit
      have hshown : SentInOrder ((first ++ (registered ++ middle)) ++ before) request := by
        apply inOrder_of_ask hsent
        intro c' hc'
        have hmem := hregister.credential_mem hc'
        simp [hmem]
      simpa using hshown

/-- The calls of an attempt are those of its registration, and after an outcome
those that ask for its operation with what the registration has left. -/
structure CallsSplit (c : Client) (events registered : List Event) (reply : Except Error Outcome)
    (authorization : Authorization) (asks : List Call) : Prop where
  course : Registration c.config c.mechanism registered reply authorization
  split : calls events = calls registered ++ asks
  replies : ∀ outcome, RegisterReply c.config registered outcome →
    RegisterReply c.config events outcome
  asked : ∀ request ∈ asks, ∃ outcome operationId id credential, reply = .ok outcome ∧
    outcome.operationId = some operationId ∧
    request = .getStatus operationId id credential authorization.bearerToken

theorem AttemptParts.callsSplit (h : AttemptParts c events) :
    ∃ registered reply authorization asks,
      CallsSplit c events registered reply authorization asks := by
  cases h with
  | @settled first registered last reply authorization hfirst hregister hlast =>
    have hcalls : calls (first ++ (registered ++ last)) = calls registered ++ [] := by
      simp [hfirst.calls_eq_nil, hlast.calls_eq_nil]
    refine ⟨registered, reply, authorization, [], hregister, hcalls, ?_, by simp⟩
    intro outcome hreply
    exact registerReply_append_iff.mpr (Or.inr (registerReply_append_iff.mpr (Or.inl hreply)))
  | @polled first registered middle polls last outcome operationId started authorization turns
      hfirst hregister hoperation hmiddle hturns hlast =>
    have hcalls : calls (first ++ (registered ++ (middle ++ (polls ++ last)))) =
        calls registered ++ calls polls := by
      simp [hfirst.calls_eq_nil, hmiddle.calls_eq_nil, hlast.calls_eq_nil]
    refine ⟨registered, .ok outcome, authorization, calls polls, hregister, hcalls, ?_, ?_⟩
    · intro outcome hreply
      exact registerReply_append_iff.mpr (Or.inr (registerReply_append_iff.mpr (Or.inl hreply)))
    · intro request hmem
      obtain ⟨before, id, credential, -, -, hrequest, -, -, -⟩ := hturns.eachSend.exists_of_mem hmem
      exact ⟨outcome, operationId, id, credential, rfl, hoperation, hrequest⟩

namespace CallsSplit

variable {registered : List Event} {reply : Except Error Outcome} {authorization : Authorization}
  {asks : List Call} {request : Call}

theorem mem_registered (h : CallsSplit c events registered reply authorization asks)
    (hmem : request ∈ calls events) (hoperation : request.operation ≠ .getStatus) :
    request ∈ calls registered := by
  rw [h.split] at hmem
  rcases List.mem_append.mp hmem with hmem | hmem
  · exact hmem
  · obtain ⟨_, _, _, _, _, _, rfl⟩ := h.asked request hmem
    exact absurd rfl hoperation

theorem mem_asks (h : CallsSplit c events registered reply authorization asks)
    (hmem : request ∈ calls events) (hoperation : request.operation = .getStatus) :
    request ∈ asks := by
  rw [h.split] at hmem
  rcases List.mem_append.mp hmem with hmem | hmem
  · exact absurd hoperation (h.course.registerCalls.operation_ne hmem)
  · exact hmem

/-- An outcome was read off the reply to a register call. -/
theorem registerCall_mem (h : CallsSplit c events registered reply authorization asks)
    {outcome : Outcome} (hok : reply = .ok outcome) :
    ∃ request ∈ calls registered, request.operation = .authenticate := by
  obtain ⟨request, deadline, answer, hsend, hoperation, -⟩ := h.course.eq_ok_iff.mp hok
  exact ⟨request, mem_calls_iff.mpr ⟨deadline, answer, hsend⟩, hoperation⟩

theorem same_registration (h : CallsSplit c events registered reply authorization asks)
    {id id' : String} {body body' : Bytes} {credential credential' : Credential}
    {token : Option String} (hnonce : .requestNonce id body credential ∈ calls events)
    (hregister : .authenticate id' body' credential' token ∈ calls events) :
    id' = id ∧ body' = body := by
  have hnonce' := h.mem_registered hnonce nofun
  have hregister' := h.mem_registered hregister nofun
  exact h.course.registerCalls.same_registration hnonce' hregister'

theorem token_of_key (h : CallsSplit c events registered reply authorization asks)
    (hkey : c.mechanism = .symmetricKey) {operationId id : String} {credential : Credential}
    {token : Option String} (hmem : .getStatus operationId id credential token ∈ calls events) :
    ∃ text id' body' credential', token = some text ∧
      .authenticate id' body' credential' (some text) ∈ calls events := by
  obtain ⟨outcome, _, _, _, hok, _, hstatus⟩ := h.asked _ (h.mem_asks hmem rfl)
  obtain ⟨request, hrequest, hoperation⟩ := h.registerCall_mem hok
  have hregistered := h.course.registerCalls
  rw [hkey] at hregistered
  obtain ⟨text, id', body', credential', htoken, rfl⟩ :=
    hregistered.token_of_key hrequest hoperation
  have hsame : token = authorization.bearerToken := (Call.getStatus.inj hstatus).2.2.2
  refine ⟨text, id', body', credential', hsame.trans htoken, ?_⟩
  rw [h.split]
  exact List.mem_append_left _ hrequest

theorem of_certificate (h : CallsSplit c events registered reply authorization asks)
    (hcertificate : c.mechanism = .x509) (hmem : request ∈ calls events) :
    request.operation ≠ .requestNonce ∧ request.bearerToken = none := by
  have hregistered := h.course.registerCalls
  rw [hcertificate] at hregistered
  by_cases hoperation : request.operation = .getStatus
  · obtain ⟨outcome, _, _, _, hok, _, rfl⟩ := h.asked _ (h.mem_asks hmem hoperation)
    obtain ⟨register, hregister, -⟩ := h.registerCall_mem hok
    have htoken : authorization.bearerToken = none := (hregistered.of_certificate hregister).1
    exact ⟨nofun, htoken⟩
  · have hmem' := h.mem_registered hmem hoperation
    exact (hregistered.of_certificate hmem').2

theorem operation_of_reply (h : CallsSplit c events registered reply authorization asks)
    {operationId id : String} {credential : Credential} {token : Option String}
    (hmem : .getStatus operationId id credential token ∈ calls events) :
    ∃ outcome, RegisterReply c.config events outcome ∧ outcome.operationId = some operationId := by
  obtain ⟨outcome, other, _, _, hok, hoperation, hstatus⟩ := h.asked _ (h.mem_asks hmem rfl)
  obtain rfl : operationId = other := (Call.getStatus.inj hstatus).1
  have hreply : RegisterReply c.config registered outcome := h.course.eq_ok_iff.mp hok
  exact ⟨outcome, h.replies outcome hreply, hoperation⟩

end CallsSplit

theorem count_registerSteps_le (mechanism : Mechanism) (topic : Topic)
    (h : topic = .credential ∨ topic = .call .authenticate) :
    (registerSteps mechanism ++ [Topic.call .authenticate]).count topic ≤ 1 := by
  rcases h with rfl | rfl <;> cases mechanism <;> decide

/-- The credential is asked for, and a register call is made, by the registration
only. -/
theorem AttemptParts.count_le (h : AttemptParts c events) {topic : Topic}
    (htopic : topic = .credential ∨ topic = .call .authenticate) :
    (topics events).count topic ≤ 1 := by
  have hquiet : topic ∉ [.clock, .enter] := by
    rcases htopic with rfl | rfl <;> decide
  have hregistered {registered : List Event} {reply : Except Error Outcome}
      {authorization : Authorization}
      (hregister : Registration c.config c.mechanism registered reply authorization) :
      (topics registered).count topic ≤ 1 :=
    Nat.le_trans (hregister.concludes.order.sublist.count_le topic)
      (count_registerSteps_le c.mechanism topic htopic)
  cases h with
  | settled hfirst hregister hlast =>
    simp only [topics_append, List.count_append, hfirst.count_eq_zero hquiet,
      hlast.count_eq_zero hquiet]
    simpa using hregistered hregister
  | polled hfirst hregister hoperation hmiddle hturns hlast =>
    have hpolls : topic ∉ turnTopics := by
      rcases htopic with rfl | rfl <;> decide
    have hcount := List.count_eq_zero_of_not_mem fun hmem ↦ hpolls (hturns.topics_subset hmem)
    simp only [topics_append, List.count_append, hfirst.count_eq_zero hquiet,
      hmiddle.count_eq_zero hquiet, hcount, hlast.count_eq_zero hquiet]
    simpa using hregistered hregister

theorem AttemptParts.callsAgree (h : AttemptParts c events) :
    CallsAgree c.config c.mechanism events := by
  obtain ⟨registered, reply, authorization, asks, hsplit⟩ := h.callsSplit
  exact {
    sent := h.sent
    unread := fun _ _ _ _ hevents hanswer hnone ↦
      calls_eq_nil_of_unread h.sent hevents hanswer hnone
    registration := fun _ _ _ _ _ _ _ hnonce hregister ↦
      hsplit.same_registration hnonce hregister
    credentialOnce := h.count_le (Or.inl rfl)
    registeredOnce := h.count_le (Or.inr rfl)
    byKey := fun hkey _ _ _ _ hmem ↦ hsplit.token_of_key hkey hmem
    byCertificate := fun hcertificate _ hmem ↦ hsplit.of_certificate hcertificate hmem
    operation := fun _ _ _ _ hmem ↦ hsplit.operation_of_reply hmem }

/-- However an attempt goes, its calls agree with each other. -/
theorem attempt_calls_agree {n : Nat} (h : Runs (c.attempt n) events (progress, c')) :
    CallsAgree c.config c.mechanism events :=
  (runs_attempt_iff.mp h).parts.callsAgree

/-- An attempt that makes each of the three calls. -/
theorem attempt_calls_agree_granted :
    ∃ (c c' : Client) (events : List Event) (progress : Progress),
      Runs (c.attempt 1) events (progress, c') ∧
      (calls events).map Call.operation = [.requestNonce, .authenticate, .getStatus] ∧
      CallsAgree c.config c.mechanism events := by
  let c : Client := ⟨.ofScope "0ne00000001" .https, .symmetricKey, .notStarted⟩
  have hrun := runs_follow granted (c.attempt 1)
  have hcalls : (calls ((c.attempt 1).follow granted).1).map Call.operation =
      [.requestNonce, .authenticate, .getStatus] := by
    decide +kernel
  exact ⟨c, _, _, _, hrun, hcalls, attempt_calls_agree hrun⟩

end Enrollment.Client
