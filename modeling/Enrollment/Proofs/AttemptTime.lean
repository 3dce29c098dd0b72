import Enrollment.Proofs.KeyDiscipline
import Enrollment.Proofs.PollAccount
import Enrollment.Proofs.Registration
import Enrollment.Proofs.TokenReader
namespace Enrollment

/-!
# How long an attempt may take

At an exact pace only waits and sleeps take time.  Each wait of a handshake may
take the whole operation timeout, whatever the budget of the attempt; what
follows the handshake is cut to what is left of the budget.  So an attempt keeps
its budget, whatever it is answered, just when its handshake fits in it.
-/

open Program Session

variable {α β : Type} {config : Config} {mechanism : Mechanism}
  {timeout limit first rest t u : Duration} {events before after : List Event}

/-! ### Waits -/

/-- Nobody waits for a reply beyond this point in time. -/
def WaitsBy (limit : Duration) (events : List Event) : Prop :=
  ∀ call deadline reply, ⟨.send call deadline, reply⟩ ∈ events → deadline ≤ limit

theorem waitsBy_append_iff :
    WaitsBy limit (before ++ after) ↔ WaitsBy limit before ∧ WaitsBy limit after := by
  simp only [WaitsBy, List.mem_append, or_imp, forall_and]

theorem WaitsBy.mono {limit' : Duration} (h : WaitsBy limit events) (hle : limit ≤ limit') :
    WaitsBy limit' events :=
  fun call deadline reply hsend ↦ Std.le_trans (h call deadline reply hsend) hle

/-- A question that takes no time at an exact pace. -/
def Query.isIdle : Query → Bool
  | .sleep _ | .send .. => false
  | _ => true

theorem waitsBy_of_isIdle {q : Query} (h : q.isIdle = true) (answer : q.Answer) :
    WaitsBy limit [⟨q, answer⟩] := by
  intro call deadline reply hsend
  cases List.mem_singleton.mp hsend
  exact nomatch h

theorem Pace.eq_of_isIdle {q : Query} (h : q.isIdle = true) {answer : q.Answer}
    (hpace : Pace.exact ⟨q, answer⟩ t u) : u = t := by
  cases q with
  | clock => exact hpace.2
  | sleep d => exact nomatch h
  | send call deadline => exact nomatch h
  | _ => exact hpace

/-! ### Programs that end within a time -/

/-- However the program is answered, it ends within this time at an exact pace,
and none of its waits could have gone on for longer. -/
def Program.Lasts (limit : Duration) (p : Program α) : Prop :=
  ∀ ⦃t u : Duration⦄ ⦃events : List Event⦄ ⦃a : α⦄, Runs p events a →
    Timed Pace.exact t events u → u ≤ t + limit ∧ WaitsBy (t + limit) events

namespace Program

theorem Lasts.mono {p : Program α} (h : p.Lasts first) (hle : first ≤ limit) : p.Lasts limit := by
  intro t u events a hrun htime
  obtain ⟨hend, hwaits⟩ := h hrun htime
  have hlater : t + first ≤ t + limit := Nat.add_le_add_left hle _
  exact ⟨Std.le_trans hend hlater, hwaits.mono hlater⟩

theorem lasts_done (a : α) : (done a).Lasts limit := by
  intro t u events b hrun htime
  obtain ⟨rfl, -⟩ := runs_done_iff.mp hrun
  obtain rfl := Timed.nil_iff.mp htime
  exact ⟨Nat.le_add_right _ _, by simp [WaitsBy]⟩

theorem lasts_query {q : Query} (h : q.isIdle = true) : (query q).Lasts .zero := by
  intro t u events answer hrun htime
  obtain rfl := runs_query_iff.mp hrun
  obtain ⟨_, hpace, hlast⟩ := Timed.cons_iff.mp htime
  obtain rfl := Timed.nil_iff.mp hlast
  obtain rfl := Pace.eq_of_isIdle h hpace
  exact ⟨Std.le_refl _, waitsBy_of_isIdle h answer⟩

/-- What follows is begun only with something that the first part can come to. -/
theorem Lasts.bind {p : Program α} {f : α → Program β} (hp : p.Lasts first)
    (hf : ∀ events a, Runs p events a → (f a).Lasts rest) : (p.bind f).Lasts (first + rest) := by
  intro t u events b hrun htime
  obtain ⟨before, after, a, rfl, hfirst, hrest⟩ := runs_bind_iff.mp hrun
  obtain ⟨between, hbefore, hafter⟩ := Timed.append_iff.mp htime
  obtain ⟨hbegun, hwaits⟩ := hp hfirst hbefore
  obtain ⟨hend, hwaits'⟩ := hf before a hfirst hrest hafter
  have hfirst_le : t + first ≤ t + (first + rest) := by
    simp only [Duration.le_def, Duration.nanos_add]
    omega
  have hrest_le : between + rest ≤ t + (first + rest) := by
    simp only [Duration.le_def, Duration.nanos_add] at hbegun ⊢
    omega
  exact ⟨Std.le_trans hend hrest_le,
    waitsBy_append_iff.mpr ⟨hwaits.mono hfirst_le, hwaits'.mono hrest_le⟩⟩

/-- After a part that takes no time there is as much left. -/
theorem Lasts.andThen {p : Program α} {f : α → Program β} (hp : p.Lasts .zero)
    (hf : ∀ events a, Runs p events a → (f a).Lasts limit) : (p.bind f).Lasts limit :=
  (hp.bind hf).mono (Nat.le_of_eq (Nat.zero_add _))

/-- A wait ends by its deadline, and that is one timeout after the look at the clock. -/
theorem lasts_exchange (timeout : Duration) (request : Call) :
    (exchange timeout request).Lasts timeout := by
  intro t u events body hrun htime
  obtain ⟨now, ⟨-, rfl, -⟩ | ⟨deadline, reply, hd, rfl, -⟩⟩ := runs_exchange_iff.mp hrun
  · obtain ⟨_, ⟨-, rfl⟩, hlast⟩ := Timed.cons_iff.mp htime
    obtain rfl := Timed.nil_iff.mp hlast
    exact ⟨Nat.le_add_right _ _, waitsBy_of_isIdle (q := .clock) rfl _⟩
  · obtain ⟨_, ⟨rfl, rfl⟩, hsend⟩ := Timed.cons_iff.mp htime
    obtain ⟨_, ⟨-, hcutoff⟩, hlast⟩ := Timed.cons_iff.mp hsend
    obtain rfl := Timed.nil_iff.mp hlast
    obtain rfl := Client.eq_of_deadline? hd
    constructor
    · simp only [Board.cutoff, Duration.le_def, Duration.nanos_max, Duration.nanos_add]
        at hcutoff ⊢
      omega
    · intro other deadline answer hmem
      obtain ⟨⟨rfl, rfl⟩, -⟩ : (other = request ∧ deadline = _ + timeout) ∧ answer = reply := by
        simpa using hmem
      exact Std.le_refl _

end Program

/-! ### Sessions that end within a time -/

def Session.Lasts (limit : Duration) (s : Session α) : Prop := ∀ a, (s.run.run a).Lasts limit

namespace Session

variable {s part : Session α} {f : α → Session β}

theorem Lasts.mono (h : s.Lasts first) (hle : first ≤ limit) : s.Lasts limit :=
  fun a ↦ (h a).mono hle

theorem lasts_ofResult (result : Except Error α) : (ofResult result).Lasts limit :=
  fun _ ↦ Program.lasts_done _

theorem lasts_modify (g : Authorization → Authorization) :
    (modify g : Session Unit).Lasts limit :=
  fun _ ↦ Program.lasts_done _

theorem lasts_pure (x : α) : (pure x : Session α).Lasts limit :=
  fun _ ↦ Program.lasts_done _

theorem lasts_get : (get : Session Authorization).Lasts limit :=
  fun _ ↦ Program.lasts_done _

theorem lasts_ofProgram {p : Program (Except Error α)} (h : p.Lasts limit) :
    (ofProgram p).Lasts limit := by
  intro a t u events result hrun htime
  obtain ⟨hp, -⟩ := yields_ofProgram_iff.mp hrun
  exact h hp htime

theorem Lasts.bind (hs : s.Lasts first)
    (hf : ∀ a events x b, s.Yields a events (.ok x) b → (f x).Lasts rest) :
    (s >>= f).Lasts (first + rest) := by
  intro a
  rw [run_bind]
  refine (hs a).bind ?_
  rintro events ⟨result, b⟩ hrun
  cases result with
  | error error => exact Program.lasts_done _
  | ok x => exact hf a events x b hrun b

theorem Lasts.andThen (hs : s.Lasts .zero)
    (hf : ∀ a events x b, s.Yields a events (.ok x) b → (f x).Lasts limit) :
    (s >>= f).Lasts limit :=
  (hs.bind hf).mono (Nat.le_of_eq (Nat.zero_add _))

theorem lasts_required (h : part.Lasts .zero) (isEmpty : α → Bool) (error : Error) :
    (required part isEmpty error).Lasts .zero :=
  h.andThen fun _ _ _ _ _ ↦ lasts_ofResult _

theorem lasts_registrationId : registrationId.Lasts .zero :=
  lasts_ofProgram (Program.lasts_query rfl)

theorem lasts_endorsementKey : endorsementKey.Lasts .zero :=
  lasts_ofProgram (Program.lasts_query rfl)

theorem lasts_storageRootKey : storageRootKey.Lasts .zero :=
  lasts_ofProgram (Program.lasts_query rfl)

theorem lasts_importKey (key : Bytes) : (importKey key).Lasts .zero :=
  lasts_ofProgram (Program.lasts_query rfl)

theorem lasts_call (timeout : Duration) (request : Call) (read : Bytes → Except Error α) :
    (call timeout request read).Lasts timeout := by
  have hexchange : (ofProgram (exchange timeout request)).Lasts timeout :=
    lasts_ofProgram (Program.lasts_exchange timeout request)
  have hread (body : Bytes) : (ofResult (read body)).Lasts .zero := lasts_ofResult _
  exact hexchange.bind fun _ _ body _ _ ↦ hread body

theorem lasts_credential (mechanism : Mechanism) : (credential mechanism).Lasts .zero := by
  have hask : (ofProgram (Program.query (.device .credential))).Lasts .zero :=
    lasts_ofProgram (Program.lasts_query rfl)
  refine hask.andThen ?_
  rintro - - found - -
  cases found with
  | none => exact lasts_ofResult _
  | some c => exact (lasts_modify _).andThen fun _ _ _ _ _ ↦ lasts_pure c

theorem lasts_expiry (ttl : Duration) : (expiry ttl).Lasts .zero := by
  intro a t u events result hrun htime
  obtain ⟨now, rfl, -, -⟩ := yields_expiry_iff.mp hrun
  exact Program.lasts_query (q := .epoch) rfl (runs_query_iff.mpr rfl) htime

theorem lasts_signedToken (config : Config) (registrationId : String) :
    (signedToken config registrationId).Lasts .zero := by
  refine (lasts_ofResult _).andThen fun _ _ scope _ _ ↦ ?_
  refine (lasts_expiry _).andThen fun _ _ expiry _ _ ↦ lasts_ofProgram ?_
  intro t u events result hrun htime
  obtain ⟨answer, rfl, -⟩ := runs_signed hrun
  exact Program.lasts_query rfl (runs_query_iff.mpr rfl) htime

end Session

/-! ### The longest handshake -/

/-- The longest that the waits of a handshake take, one after the other.  A token
is needed before the second wait of a handshake by key, and an id scope with a
separator in it gets none. -/
def longestHandshake (config : Config) : Mechanism → Duration
  | .x509 => config.operationTimeout
  | .symmetricKey =>
    if config.idScope.toList.all Token.isSegmentChar then
      config.operationTimeout + config.operationTimeout
    else config.operationTimeout

theorem lasts_keyIdentity : keyIdentity.Lasts .zero :=
  (lasts_required lasts_registrationId _ _).andThen fun _ _ _ _ _ ↦
    (lasts_required lasts_endorsementKey _ _).andThen fun _ _ _ _ _ ↦
      (lasts_required lasts_storageRootKey _ _).andThen fun _ _ _ _ _ ↦ lasts_pure _

/-- After the nonce there is one more wait if a token can be made. -/
theorem lasts_registerByKey :
    (registerByKey config).Lasts (longestHandshake config .symmetricKey) := by
  let rest : Duration :=
    if config.idScope.toList.all Token.isSegmentChar then config.operationTimeout else .zero
  have hrest : config.operationTimeout + rest ≤ longestHandshake config .symmetricKey := by
    unfold rest longestHandshake
    split
    · exact Std.le_refl _
    · exact Nat.le_of_eq (Nat.add_zero _)
  refine lasts_keyIdentity.andThen fun _ _ identity _ _ ↦ ?_
  refine (lasts_credential _).andThen fun _ _ credential _ _ ↦ ?_
  refine ((lasts_call _ _ _).bind fun _ _ key _ _ ↦ ?_).mono hrest
  refine (lasts_importKey key).andThen fun _ _ _ _ _ ↦ ?_
  refine (lasts_signedToken _ _).andThen fun _ _ token _ htoken ↦ ?_
  refine (lasts_modify _).andThen fun _ _ _ _ _ ↦ ?_
  obtain ⟨-, ⟨made, -, -⟩ | ⟨error, -, herror⟩⟩ := signedToken_cases htoken
  · have hscope : rest = config.operationTimeout := if_pos (Token.segments_of_scope made.inScope)
    rw [hscope]
    exact lasts_call _ _ _
  · exact nomatch herror

theorem lasts_registerByCertificate :
    (registerByCertificate config).Lasts (longestHandshake config .x509) :=
  (lasts_required lasts_registrationId _ _).andThen fun _ _ _ _ _ ↦
    (lasts_credential _).andThen fun _ _ _ _ _ ↦ lasts_call _ _ _

theorem lasts_register (config : Config) (mechanism : Mechanism) :
    (register config mechanism).Lasts (longestHandshake config mechanism) := by
  rw [register_eq]
  refine (lasts_ofResult _).andThen fun _ _ _ _ _ ↦ ?_
  cases mechanism with
  | symmetricKey => exact lasts_registerByKey
  | x509 => exact lasts_registerByCertificate

/-! ### Attempts -/

namespace Client

variable {c c' : Client} {p : Polling} {n : Nat} {progress last : Progress}

theorem lasts_transition (c : Client) (next : State) : (c.transition next).Lasts .zero := by
  unfold transition
  split
  · exact Program.lasts_done _
  · exact (Program.lasts_query (q := .enter next) rfl).andThen fun _ _ _ ↦ Program.lasts_done _

theorem lasts_judge (c : Client) (started : Duration) (reply : Except Error Outcome)
    (authorization : Authorization) : (c.judge started reply authorization).Lasts .zero := by
  rcases settles_or_pending reply with ⟨found, hsettles⟩ | ⟨outcome, id, rfl, hpending⟩
  · rw [judge_of_settles hsettles]
    exact Program.lasts_done _
  · rw [judge_of_pending hpending]
    exact (lasts_transition c _).andThen fun _ _ _ ↦ Program.lasts_done _

theorem lasts_begin (c : Client) : c.begin.Lasts (longestHandshake c.config c.mechanism) := by
  rw [begin_eq]
  refine (Program.lasts_query (q := .clock) rfl).andThen fun _ started _ ↦ ?_
  refine (lasts_transition c _).andThen fun _ entered hentered ↦ ?_
  obtain ⟨-, rfl⟩ := runs_transition_iff.mp hentered
  exact (lasts_register c.config c.mechanism .empty).bind fun _ _ _ ↦ lasts_judge _ _ _ _

theorem lasts_finish (c : Client) (progress : Progress) : (c.finish progress).Lasts .zero := by
  cases progress with
  | polling p => exact Program.lasts_done _
  | finished found => exact (lasts_transition c _).andThen fun _ _ _ ↦ Program.lasts_done _

/-! ### Turns -/

theorem lasts_queryStatus (operationId : String) (timeout : Duration) :
    (queryStatus operationId timeout).Lasts timeout := by
  unfold queryStatus
  split
  · exact lasts_ofResult _
  · refine (lasts_required lasts_registrationId _ _).andThen fun _ _ id _ _ ↦ ?_
    refine lasts_get.andThen fun _ _ authorization _ _ ↦ ?_
    split
    · exact lasts_ofResult _
    · exact lasts_call _ _ _

/-- No poll of an attempt is waited for beyond its budget. -/
theorem TurnCourse.waits_by {turn : Turn} (h : TurnCourse config p events turn)
    (hid : p.operationId ≠ "") (htime : Timed Pace.exact t events u) (hstart : p.started ≤ t) :
    WaitsBy (p.started + config.attemptBudget) events := by
  cases h with
  | spent h => exact waitsBy_of_isIdle (q := .clock) rfl _
  | @polled now later hleft asked result hask =>
    obtain ⟨_, ⟨rfl, rfl⟩, hslept⟩ := Timed.cons_iff.mp htime
    obtain ⟨_, hsleep, hlook⟩ := Timed.cons_iff.mp hslept
    obtain ⟨woken, ⟨rfl, rfl⟩, hasked⟩ := Timed.cons_iff.mp hlook
    have hyields := (yields_queryStatus_iff hid).mpr ⟨rfl, hask⟩
    obtain ⟨-, hwaits⟩ := lasts_queryStatus _ _ _ hyields hasked
    have hwithin : woken + min config.operationTimeout (leftOver config p woken) ≤
        p.started + config.attemptBudget := by
      simp only [Pace.exact] at hsleep
      simp only [hsleep, leftOver, Duration.le_def, Duration.lt_def, Duration.nanos_add,
        Duration.nanos_min, Duration.nanos_sub] at *
      omega
    intro call deadline reply hmem
    have hsend : ⟨.send call deadline, reply⟩ ∈ asked := by
      simpa using hmem
    exact hwaits.mono hwithin call deadline reply hsend

theorem Turns.waits_by {turns : List Turn} (h : Turns config p events turns)
    (hid : p.operationId ≠ "") (htime : Timed Pace.exact t events u) (hstart : p.started ≤ t) :
    WaitsBy (p.started + config.attemptBudget) events := by
  induction h generalizing t with
  | nil => simp [WaitsBy]
  | cons hturn _ ih =>
    obtain ⟨between, hbefore, hafter⟩ := Timed.append_iff.mp htime
    have hforward : t ≤ between := (hbefore.mono Pace.forward_of_exact).le
    exact waitsBy_append_iff.mpr ⟨hturn.waits_by hid hbefore hstart,
      ih hafter (Std.le_trans hstart hforward)⟩

/-! ### Whole attempts -/

theorem polls_within {before asked : List Event} {first : Progress} {between : Duration}
    (hbegin : Runs c.begin before (first, c')) (hbefore : Timed Pace.exact t before between)
    (hpolls : Runs (c'.polls n first) asked last) (hasked : Timed Pace.exact between asked u) :
    u ≤ max between (t + c.config.attemptBudget) ∧ WaitsBy (t + c.config.attemptBudget) asked ∧
      topics asked ⊆ turnTopics := by
  obtain ⟨started, registered, reply, authorization, -, hcases⟩ := runs_begin_iff.mp hbegin
  rcases hcases with
    ⟨found, -, rfl, rfl, rfl⟩ | ⟨outcome, id, rfl, hpending, rfl, rfl, rfl⟩
  · rw [polls_finished] at hpolls
    obtain ⟨rfl, rfl⟩ := runs_pure_iff.mp hpolls
    obtain rfl := Timed.nil_iff.mp hasked
    refine ⟨?_, by simp [WaitsBy], List.nil_subset _⟩
    simp only [Duration.le_def, Duration.nanos_max]
    omega
  · obtain ⟨_, ⟨rfl, rfl⟩, -⟩ := Timed.cons_iff.mp hbefore
    have hstart := (hbefore.mono Pace.forward_of_exact).le
    obtain ⟨turns, hturns, -⟩ := (runs_polls_iff hpending.named n).mp hpolls
    have hend := hturns.elapsed_le hasked hstart
    refine ⟨?_, hturns.waits_by hpending.named hasked hstart, hturns.topics_subset⟩
    simp only [Duration.le_def, Duration.nanos_max, Duration.nanos_sub, Duration.nanos_add]
      at hend hstart ⊢
    omega

theorem status_not_mem_begin (h : Runs c.begin events (progress, c')) :
    .call .getStatus ∉ topics events := by
  obtain ⟨started, registered, reply, authorization, hregister, hcases⟩ := runs_begin_iff.mp h
  have hregistered := (register_course hregister).not_mem List.mem_cons_self
  have hentered : .call .getStatus ∉ topics (c.announced .registering) := by
    unfold announced
    split <;> simp [topics, Query.topic]
  have hpolling : .call .getStatus ∉ topics [⟨.enter .assigning, ()⟩] := by decide
  rcases hcases with ⟨-, -, -, rfl, -⟩ | ⟨-, -, -, -, -, rfl, -⟩
  · simp [topics_cons, Query.topic, hentered, hregistered]
  · rw [topics_cons, topics_append, topics_append]
    simp only [List.mem_cons, List.mem_append, not_or]
    refine ⟨?_, ⟨hentered, hregistered⟩, hpolling⟩
    simp [Query.topic]

theorem calls_finish (h : Runs (c.finish progress) events (last, c')) : calls events = [] := by
  cases progress with
  | polling p =>
    obtain ⟨rfl, -⟩ := runs_finish_polling_iff.mp h
    rfl
  | finished found =>
    obtain ⟨rfl, -⟩ := runs_finish_finished_iff.mp h
    unfold announced
    split <;> rfl

/-- A wait of an attempt is one of its registration or one for a status. -/
theorem send_cases {registering polling ending : List Event} {first : Progress} {begun : Client}
    (hbegin : Runs c.begin registering (first, begun)) (hpolls : topics polling ⊆ turnTopics)
    (hfinish : Runs (begun.finish progress) ending (last, c')) {request : Call}
    {deadline : Duration} {reply : Reply}
    (hmem : ⟨.send request deadline, reply⟩ ∈ registering ++ (polling ++ ending)) :
    request.operation ≠ .getStatus ∧ ⟨.send request deadline, reply⟩ ∈ registering ∨
      request.operation = .getStatus ∧ ⟨.send request deadline, reply⟩ ∈ polling := by
  rw [List.mem_append, List.mem_append] at hmem
  rcases hmem with hin | hin | hin
  · refine Or.inl ⟨fun hstatus ↦ status_not_mem_begin hbegin ?_, hin⟩
    rw [← hstatus]
    exact topic_mem hin
  · have htopic := hpolls (topic_mem hin)
    simp only [Query.topic, turnTopics, List.mem_cons, reduceCtorEq, Topic.call.injEq,
      List.not_mem_nil, or_false, false_or] at htopic
    exact Or.inr ⟨htopic, hin⟩
  · have hcall : request ∈ calls ending := mem_calls_iff.mpr ⟨deadline, reply, hin⟩
    rw [calls_finish hfinish] at hcall
    exact absurd hcall List.not_mem_nil

structure WithinTime (c : Client) (t : Duration) (events : List Event) (u : Duration) : Prop where
  ends : u ≤ t + max (longestHandshake c.config c.mechanism) c.config.attemptBudget
  handshake : ∀ call deadline reply, ⟨.send call deadline, reply⟩ ∈ events →
    call.operation ≠ .getStatus → deadline ≤ t + longestHandshake c.config c.mechanism
  polls : ∀ call deadline reply, ⟨.send call deadline, reply⟩ ∈ events →
    call.operation = .getStatus → deadline ≤ t + c.config.attemptBudget

theorem attempt_within (hrun : Runs (c.attempt n) events (progress, c'))
    (htime : Timed Pace.exact t events u) : WithinTime c t events u := by
  rw [attempt_eq] at hrun
  obtain ⟨before, rest, ⟨first, begun⟩, rfl, hbegin, hrest⟩ := runs_bind_iff.mp hrun
  obtain ⟨asked, final, last, rfl, hpolls, hfinish⟩ := runs_bind_iff.mp hrest
  obtain ⟨between, hbefore, hafter⟩ := Timed.append_iff.mp htime
  obtain ⟨polled, hasked, hfinal⟩ := Timed.append_iff.mp hafter
  obtain ⟨hbegun, hwaits⟩ := lasts_begin c hbegin hbefore
  obtain ⟨hover, hwaits', htopics⟩ := polls_within hbegin hbefore hpolls hasked
  obtain ⟨hend, hnothing⟩ := lasts_finish begun last hfinish hfinal
  exact {
    ends := by
      simp only [Duration.le_def, Duration.nanos_max, Duration.nanos_add, Duration.zero]
        at hbegun hover hend ⊢
      omega
    handshake := by
      intro call deadline reply hmem hoperation
      rcases send_cases hbegin htopics hfinish hmem with ⟨-, hin⟩ | ⟨hstatus, -⟩
      · exact hwaits call deadline reply hin
      · exact absurd hstatus hoperation
    polls := by
      intro call deadline reply hmem hoperation
      rcases send_cases hbegin htopics hfinish hmem with ⟨hother, -⟩ | ⟨-, hin⟩
      · exact absurd hoperation hother
      · exact hwaits' call deadline reply hin }

/-! ### Every length of a handshake up to the longest is had -/

/-- A device and a service that grant a key, whatever the configuration. -/
def firstIdentity : KeyIdentity := ⟨"device", [1], [2]⟩

theorem firstIdentity_complete : firstIdentity.Complete := by
  constructor <;> decide

def keyReply : Reply :=
  .accepted (.delivered (.ok (some (Bytes.ofText "\x7b\"authenticationKey\":\"AQID\"\x7d"))))

theorem answered_keyReply (timeout : Duration) (id : String) (body : Bytes) (c : Credential) :
    answered timeout (.requestNonce id body c) nonceKey keyReply = .ok [1, 2, 3] := by
  have hkey : nonceKey (Bytes.ofText "\x7b\"authenticationKey\":\"AQID\"\x7d") = .ok [1, 2, 3] := by
    decide +kernel
  exact answered_eq_ok_iff.mpr ⟨_, rfl, hkey⟩

theorem exists_tokenMade (hvalid : config.Valid)
    (hscope : config.idScope.toList.all Token.isSegmentChar = true) :
    Nonempty (TokenMade config firstIdentity.registrationId) := by
  have hnamed : config.idScope.isEmpty = false := by
    by_contra hempty
    have hnone : config.idScope = "" := by simpa using hempty
    have hblank := hvalid.scope
    rw [hnone] at hblank
    exact nomatch hblank
  have hlimit : config.tokenTtl.nanos ≤ 365 * 24 * 60 * 60 * 1000000000 :=
    hvalid.bounded .tokenTtl
  have hfits : (Duration.zero + config.tokenTtl).secs < Nat.pow 2 64 := by
    change (0 + config.tokenTtl.nanos) / 1000000000 < 18446744073709551616
    omega
  exact ⟨{
    scope := _
    inScope := Token.scope_eq_ok hnamed hscope (by decide) (by decide)
    now := some .zero
    expiry := _
    dated := if_pos hfits
    signature := [3]
    signed := by decide
    token := _
    written := rfl }⟩

/-- A handshake that fails after exactly this time. -/
def FailsAfter (config : Config) (mechanism : Mechanism) (t d : Duration) : Prop :=
  ∃ registered error left,
    (register config mechanism).Yields .empty registered (.error error) left ∧
      Timed Pace.exact t registered (t + d)

theorem Pace.exact_send {request : Call} {reply : Reply} {d : Duration} (h : d ≤ timeout) :
    Pace.exact ⟨.send request (t + timeout), reply⟩ t (t + d) := by
  have hnanos : d.nanos ≤ timeout.nanos := h
  refine ⟨Nat.le_add_right _ _, ?_⟩
  simp only [Board.cutoff, Duration.le_def, Duration.nanos_max, Duration.nanos_add]
  omega

theorem failsAfter_of_certificate (hvalid : config.Valid) (ht : t.secs < Nat.pow 2 62)
    {d : Duration} (hd : d ≤ config.operationTimeout) : FailsAfter config .x509 t d := by
  have hname : "device" ≠ "" := by decide
  have hdeadline := deadline?_within hvalid ht (Nat.zero_le _) (Std.le_refl _)
  have hcalled := registerByCertificate_called hname .serverAuthOnly hdeadline (.accepted .dropped)
  rw [← register_x509 hvalid] at hcalled
  refine ⟨_, _, _, hcalled, ?_⟩
  exact .cons rfl (.cons rfl (.cons ⟨rfl, rfl⟩ (.cons (Pace.exact_send hd) (.nil _))))

/-- The wait for the nonce alone takes this long. -/
theorem failsAfter_of_nonce (hvalid : config.Valid) (ht : t.secs < Nat.pow 2 62)
    {d : Duration} (hd : d ≤ config.operationTimeout) : FailsAfter config .symmetricKey t d := by
  have hdeadline := deadline?_within hvalid ht (Nat.zero_le _) (Std.le_refl _)
  have hdropped (id : String) (body : Bytes) (c : Credential) :
      answered config.operationTimeout (.requestNonce id body c) nonceKey (.accepted .dropped) =
        .error (.noResponse .requestNonce) := rfl
  have hungranted := registerByKey_ungranted firstIdentity_complete .serverAuthOnly hdeadline
    (hdropped _ _ _)
  rw [← register_symmetricKey hvalid] at hungranted
  refine ⟨_, _, _, hungranted, ?_⟩
  exact .cons rfl (.cons rfl (.cons rfl (.cons rfl (.cons ⟨rfl, rfl⟩
    (.cons (Pace.exact_send hd) (.nil _))))))

/-- The wait for the nonce takes this long, and the next one the whole timeout. -/
theorem failsAfter_of_both (hvalid : config.Valid) (ht : t.secs < Nat.pow 2 62)
    (hscope : config.idScope.toList.all Token.isSegmentChar = true) {d : Duration}
    (hd : d ≤ config.operationTimeout) :
    FailsAfter config .symmetricKey t (d + config.operationTimeout) := by
  obtain ⟨made⟩ := exists_tokenMade hvalid hscope
  let g : Grant config := {
    identity := firstIdentity
    complete := firstIdentity_complete
    credential := .serverAuthOnly
    now := t
    deadline := t + config.operationTimeout
    inTime := deadline?_within hvalid ht (Nat.zero_le _) (Std.le_refl _)
    reply := keyReply
    key := [1, 2, 3]
    brings := answered_keyReply _ _ _ _ }
  have hdeadline := deadline?_within hvalid ht hd (Std.le_refl _)
  have hcalled := g.registerByKey_called made hdeadline (.accepted .dropped)
  rw [← register_symmetricKey hvalid] at hcalled
  have hwhole : config.operationTimeout ≤ config.operationTimeout := Std.le_refl _
  have hsame : t + (d + config.operationTimeout) = t + d + config.operationTimeout :=
    congrArg Duration.mk (Nat.add_assoc _ _ _).symm
  refine ⟨_, _, _, hcalled, ?_⟩
  rw [hsame]
  exact .cons rfl (.cons rfl (.cons rfl (.cons rfl (.cons ⟨rfl, rfl⟩
    (.cons (Pace.exact_send hd) (.cons rfl (.cons rfl (.cons rfl (.cons ⟨rfl, rfl⟩
      (.cons (Pace.exact_send hwhole) (.nil _)))))))))))

theorem failsAfter_of_le (hvalid : config.Valid) (ht : t.secs < Nat.pow 2 62) {d : Duration}
    (hd : d ≤ longestHandshake config mechanism) : FailsAfter config mechanism t d := by
  cases mechanism with
  | x509 => exact failsAfter_of_certificate hvalid ht hd
  | symmetricKey =>
    by_cases hone : d ≤ config.operationTimeout
    · exact failsAfter_of_nonce hvalid ht hone
    by_cases hscope : config.idScope.toList.all Token.isSegmentChar = true
    · rw [longestHandshake, if_pos hscope] at hd
      have hfirst : d - config.operationTimeout ≤ config.operationTimeout := by
        simp only [Duration.le_def, Duration.nanos_add, Duration.nanos_sub] at hd ⊢
        omega
      have hnanos : (d - config.operationTimeout + config.operationTimeout).nanos = d.nanos := by
        simp only [Duration.le_def, Duration.nanos_add, Duration.nanos_sub] at hone ⊢
        omega
      have hsum : d - config.operationTimeout + config.operationTimeout = d :=
        congrArg Duration.mk hnanos
      have hboth := failsAfter_of_both hvalid ht hscope hfirst
      rwa [hsum] at hboth
    · rw [longestHandshake, if_neg hscope] at hd
      exact absurd hd hone

theorem timed_announced (c : Client) (next : State) (t : Duration) :
    Timed Pace.exact t (c.announced next) t := by
  unfold announced
  split
  · exact .nil t
  · exact .cons rfl (.nil t)

/-- An attempt that its registration settles ends with it. -/
theorem attempt_of_settled {registered : List Event} {reply found : Except Error Outcome}
    {left : Authorization}
    (hregister : (register c.config c.mechanism).Yields .empty registered reply left)
    (hsettles : Settles reply found) (htime : Timed Pace.exact t registered u) (n : Nat) :
    ∃ events c', Runs (c.attempt n) events (.finished found, c') ∧
      Timed Pace.exact t events u := by
  have hrun : Runs (c.attempt n) (⟨.clock, t⟩ :: (c.announced .registering ++ registered ++
      [⟨.enter (finalState found), ()⟩])) (.finished found, { c with state := finalState found }) :=
    runs_attempt_iff.mpr (.settled hregister hsettles)
  refine ⟨_, _, hrun, ?_⟩
  apply Timed.cons ⟨rfl, rfl⟩
  rw [List.append_assoc]
  apply Timed.append_iff.mpr
  refine ⟨t, timed_announced c _ t, ?_⟩
  apply Timed.append_iff.mpr
  exact ⟨u, htime, .cons rfl (.nil _)⟩

theorem FailsAfter.attempt {d : Duration} (h : FailsAfter c.config c.mechanism t d) (n : Nat) :
    ∃ events error c', Runs (c.attempt n) events (.finished (.error error), c') ∧
      Timed Pace.exact t events (t + d) := by
  obtain ⟨registered, error, left, hregister, htime⟩ := h
  obtain ⟨events, c', hrun, hattempt⟩ := attempt_of_settled hregister (.failed error) htime n
  exact ⟨events, error, c', hrun, hattempt⟩

/-- With enough turns an attempt is finished. -/
theorem finished_of_enoughTurns (hvalid : c.config.Valid)
    (hrun : Runs (c.attempt n) events (progress, c')) (htime : Timed Pace.exact t events u)
    (hn : c.enoughTurns ≤ n) : ∃ found, progress = .finished found := by
  rcases runs_attempt_iff.mp hrun with hsettled | hdecided |
    @⟨started, registered, asked, outcome, id, authorization, turns, -, -, hturns, hall⟩
  · exact ⟨_, rfl⟩
  · exact ⟨_, rfl⟩
  · have hforward := htime.mono Pace.forward_of_exact
    obtain ⟨-, hfrom⟩ := Timed.of_clock hforward
    rw [← List.cons_append] at hfrom
    obtain ⟨entering, hregister, hpolling⟩ := Timed.append_iff.mp hfrom
    obtain ⟨polling, hentered, hasked⟩ := Timed.cons_iff.mp hpolling
    have hstart : started ≤ polling := Std.le_trans hregister.le hentered
    have hinterval : .zero < c.config.pollInterval := hvalid.positive .pollInterval
    have hcount := hturns.rounds_le hasked hstart hinterval
    have henough := rounds_lt_enoughTurns (p := ⟨started, id, authorization⟩) hvalid polling
    have hfew : pollCount turns < n := by
      omega
    exact hall.finished_of_pollCount_lt hfew

/-! ### What an attempt takes -/

/-- The attempts of a client at an exact pace. -/
structure TimeAccount (c : Client) : Prop where
  within : ∀ {n events progress c' t u}, Runs (c.attempt n) events (progress, c') →
    Timed Pace.exact t events u → WithinTime c t events u
  returns : ∀ {n events progress c' t u}, Runs (c.attempt n) events (progress, c') →
    Timed Pace.exact t events u → c.enoughTurns ≤ n → ∃ found, progress = .finished found
  /-- The bound on a handshake is the best there is. -/
  reached : ∀ {t d : Duration} (n : Nat), t.secs < Nat.pow 2 62 →
    d ≤ longestHandshake c.config c.mechanism →
      ∃ events error c', Runs (c.attempt n) events (.finished (.error error), c') ∧
        Timed Pace.exact t events (t + d)
  keepsBudget : (∀ {n events progress c' t u}, Runs (c.attempt n) events (progress, c') →
      Timed Pace.exact t events u →
        u ≤ t + c.config.attemptBudget ∧ WaitsBy (t + c.config.attemptBudget) events) ↔
    longestHandshake c.config c.mechanism ≤ c.config.attemptBudget

theorem WithinTime.keepsBudget (h : WithinTime c t events u)
    (hfits : longestHandshake c.config c.mechanism ≤ c.config.attemptBudget) :
    u ≤ t + c.config.attemptBudget ∧ WaitsBy (t + c.config.attemptBudget) events := by
  have hhandshake : t + longestHandshake c.config c.mechanism ≤ t + c.config.attemptBudget :=
    Nat.add_le_add_left hfits _
  refine ⟨?_, fun call deadline reply hsend ↦ ?_⟩
  · have hend := h.ends
    simp only [Duration.le_def, Duration.nanos_add, Duration.nanos_max] at hend hfits ⊢
    omega
  · by_cases hstatus : call.operation = .getStatus
    · exact h.polls call deadline reply hsend hstatus
    · exact Std.le_trans (h.handshake call deadline reply hsend hstatus) hhandshake

/-- Attempts end by their budget or by the end of their handshake, and so they keep
their budget, whatever they are answered, just when it covers the longest handshake. -/
theorem attempt_time_accounted (hvalid : c.config.Valid) : TimeAccount c := by
  have hreached {t d : Duration} (n : Nat) (ht : t.secs < Nat.pow 2 62)
      (hd : d ≤ longestHandshake c.config c.mechanism) :=
    (failsAfter_of_le hvalid ht hd).attempt n
  refine {
    within := attempt_within
    returns := finished_of_enoughTurns hvalid
    reached := hreached
    keepsBudget := ?_ }
  constructor
  · intro hkeeps
    obtain ⟨events, error, c', hrun, htime⟩ :=
      hreached 0 (t := .zero) (by decide) (Std.le_refl _)
    have hend := (hkeeps hrun htime).1
    simpa [Duration.le_def, Duration.zero] using hend
  · intro hfits n events progress c' t u hrun htime
    exact (attempt_within hrun htime).keepsBudget hfits

/-- With the default settings every attempt keeps its budget. -/
theorem attempt_time_accounted_default :
    ∃ c : Client, c.config = .ofScope "0ne00000001" .https ∧ c.config.Valid ∧ TimeAccount c ∧
      longestHandshake c.config c.mechanism ≤ c.config.attemptBudget := by
  let c : Client := ⟨.ofScope "0ne00000001" .https, .symmetricKey, .notStarted⟩
  have hvalid : c.config.Valid := Config.valid_ofScope (by decide) .https
  exact ⟨c, rfl, hvalid, attempt_time_accounted hvalid, by decide⟩

/-- A budget of a tenth of a second, and two seconds for each call. -/
def tightConfig : Config :=
  { Config.ofScope "0ne00000001" .https with
    operationTimeout := .ofSecs 2
    pollInterval := .ofMillis 50
    attemptBudget := .ofMillis 100 }

/-- The reply to the register call is waited for long after the budget is spent. -/
theorem attempt_overruns_budget :
    ∃ (c : Client) (events : List Event) (outcome : Outcome) (c' : Client) (u : Duration),
      c.config = tightConfig ∧ c.config.Valid ∧
      Runs (c.attempt 4) events (.finished (.ok outcome), c') ∧
      Timed Pace.exact .zero events u ∧ u = .ofMillis 600 ∧
      ¬ u ≤ .zero + c.config.attemptBudget := by
  let c : Client := ⟨tightConfig, .x509, .notStarted⟩
  have hvalid : c.config.Valid := Config.validate_eq_ok_iff.mp (by decide +kernel)
  have hname : "device" ≠ "" := by decide
  have hdeadline : deadline? .zero c.config.operationTimeout = some (.zero + .ofSecs 2) := by decide
  let reply : Reply := .accepted (.delivered (.ok (some assignedBody)))
  obtain ⟨outcome, hread, hterminal⟩ : ∃ outcome, Outcome.ofBytes assignedBody = .ok outcome ∧
      outcome.status.isTerminal = true :=
    ⟨⟨.assigned, none, none, none, none, none, none, none, none, none, none⟩,
      by decide +kernel, rfl⟩
  have hcalled := registerByCertificate_called hname .serverAuthOnly hdeadline reply
  have hanswered : answered c.config.operationTimeout
      (.authenticate "device" (certificateBody "device") .serverAuthOnly none) Outcome.ofBytes
      reply = .ok outcome :=
    answered_eq_ok_iff.mpr ⟨assignedBody, rfl, hread⟩
  rw [← register_x509 hvalid, hanswered] at hcalled
  obtain ⟨events, c', hrun, hattempt⟩ := attempt_of_settled (c := c) (t := .zero)
    (u := .ofMillis 600) hcalled (.terminal hterminal)
    (.cons rfl (.cons rfl (.cons ⟨rfl, rfl⟩ (.cons ⟨by decide, by decide⟩ (.nil _))))) 4
  exact ⟨c, events, outcome, c', _, rfl, hvalid, hrun, hattempt, rfl, by decide⟩

end Client
end Enrollment
