import Enrollment.Proofs.AttemptTokens
import Enrollment.Proofs.KeyDiscipline
import Enrollment.Proofs.Notifications
import Enrollment.Proofs.PollAccount
import Enrollment.Proofs.TokenReader
namespace Enrollment

/-!
# Admitted clients compute within bounds

A client is only made of a valid configuration.  That bounds its durations, and
so no attempt of it trips over one of its own guards: the configuration is not
refused again, no operation without an id is asked for, and every deadline and
every expiry is a point in time.
-/

open Program Session

variable {α : Type} {config : Config} {mechanism : Mechanism} {timeout : Duration}
  {events before after : List Event} {error : Error} {left : Authorization}

/-! ### Guards, and errors that come from outside -/

/-- The faults by which a client guards its configuration, its questions after a
status, its deadlines and its expiries. -/
def ClientFault.isGuard : ClientFault → Bool
  | noIdScope | noEndpoint | zeroDuration _ | longDuration .. => true
  | emptyOperationId => true
  | longTimeout .. => true
  | longLifetime _ => true
  | _ => false

def Error.isGuard : Error → Bool
  | client fault => fault.isGuard
  | _ => false

def DeviceQuery.reported? : (query : DeviceQuery) → query.Answer → Option Error
  | registrationId, answer => failure? answer
  | credential, answer => failure? answer
  | endorsementKey, answer => failure? answer
  | storageRootKey, answer => failure? answer
  | sign _, answer => failure? answer
  | importKey _, answer => failure? answer

def Reply.reported? : Reply → Option Error
  | rejected error => some error
  | accepted (.delivered (.error error)) => some error
  | _ => none

/-- The error that a device or a service has answered with. -/
def Program.Event.reported? : Event → Option Error
  | ⟨.device query, answer⟩ => query.reported? answer
  | ⟨.send _ _, reply⟩ => reply.reported?
  | _ => none

def Reported (events : List Event) (error : Error) : Prop :=
  ∃ e ∈ events, e.reported? = some error

theorem Reported.mono (h : Reported before error) (hsubset : before ⊆ events) :
    Reported events error := by
  obtain ⟨e, hmem, hreport⟩ := h
  exact ⟨e, hsubset hmem, hreport⟩

theorem Reply.reported?_of_body {operation : Operation} {reply : Reply}
    (h : reply.body operation timeout = .error error) (hguard : error.isGuard = true) :
    reply.reported? = some error := by
  unfold Reply.body at h
  split at h
  · exact congrArg some (Except.error.inj h)
  · exact congrArg some (Except.error.inj h)
  · exact nomatch h
  · obtain rfl := Except.error.inj h
    exact nomatch hguard
  · obtain rfl := Except.error.inj h
    exact nomatch hguard
  · obtain rfl := Except.error.inj h
    exact nomatch hguard

/-- A reader of bodies that trips over no guard. -/
def Unguarded (read : Bytes → Except Error α) : Prop :=
  ∀ body error, read body = .error error → error.isGuard = false

theorem reported?_of_answered {request : Call} {read : Bytes → Except Error α} {reply : Reply}
    (h : answered timeout request read reply = .error error) (hread : Unguarded read)
    (hguard : error.isGuard = true) : reply.reported? = some error := by
  unfold answered at h
  cases hbody : reply.body request.operation timeout with
  | error e =>
    rw [hbody] at h
    obtain rfl := Except.error.inj h
    exact Reply.reported?_of_body hbody hguard
  | ok body =>
    rw [hbody] at h
    have hnone := hread body error h
    rw [hguard] at hnone
    exact nomatch hnone

theorem NonceReply.not_isGuard_of_key {r : NonceReply} (h : r.key = .error error) :
    error.isGuard = false := by
  unfold NonceReply.key at h
  split at h
  · exact nomatch h
  · split at h <;>
    · obtain rfl := Except.error.inj h
      rfl

theorem unguarded_nonceKey : Unguarded nonceKey := by
  intro body error h
  unfold nonceKey authenticationKey at h
  cases hreply : NonceReply.ofBytes? body with
  | none =>
    obtain rfl : Error.malformedBody = error := by simpa [hreply] using h
    rfl
  | some reply =>
    cases hkey : reply.key with
    | error e =>
      obtain rfl : e = error := by simpa [hreply, hkey] using h
      exact NonceReply.not_isGuard_of_key hkey
    | ok encoded =>
      cases hdecode : Base64.decode (Bytes.ofText encoded) with
      | ok key => simp [hreply, hkey, hdecode] at h
      | error fault =>
        obtain rfl : .authentication (.notBase64 fault) = error := by
          simpa [hreply, hkey, hdecode] using h
        rfl

theorem unguarded_outcome : Unguarded Outcome.ofBytes := by
  intro body error h
  unfold Outcome.ofBytes at h
  split at h
  · obtain rfl := Except.error.inj h
    rfl
  · unfold Response.outcome at h
    split at h
    · split at h
      · obtain rfl := Except.error.inj h
        rfl
      · exact nomatch h
    · split at h <;>
      · obtain rfl := Except.error.inj h
        rfl

theorem checked_guard {isEmpty : α → Bool} {own : Error} {answer : Except Error α}
    (h : checked isEmpty own answer = .error error) (hown : own.isGuard = false)
    (hguard : error.isGuard = true) : failure? answer = some error := by
  cases answer with
  | error e => exact congrArg some (Except.error.inj h)
  | ok found =>
    unfold checked Except.bind at h
    dsimp only at h
    split at h
    · obtain rfl := Except.error.inj h
      rw [hown] at hguard
      exact nomatch hguard
    · exact nomatch h

theorem held_guard {answer : Except Error (Option Credential)}
    (h : held mechanism answer = .error error) (hguard : error.isGuard = true) :
    failure? answer = some error := by
  cases answer with
  | error e => exact congrArg some (Except.error.inj h)
  | ok found =>
    cases found with
    | none =>
      obtain rfl := Except.error.inj h
      exact nomatch hguard
    | some c => exact nomatch h

theorem not_isGuard_of_scope {idScope registrationId : String}
    (h : Token.scope idScope registrationId = .error error) : error.isGuard = false := by
  obtain ⟨part, rfl | ⟨text, rfl⟩⟩ := Token.fault_of_scope h <;> rfl

/-! ### Clocks within range -/

/-- Both clocks show less than so many seconds that any wait and any lifetime fits. -/
structure ClocksFit (events : List Event) : Prop where
  clock : ClockFits 62 events
  epoch : ∀ now : Duration, ⟨.epoch, some now⟩ ∈ events → now.secs < Nat.pow 2 62

theorem ClocksFit.mono (h : ClocksFit events) (hsubset : before ⊆ events) : ClocksFit before where
  clock := fun now hmem ↦ h.clock now (hsubset hmem)
  epoch := fun now hmem ↦ h.epoch now (hsubset hmem)

/-- A wait no longer than the operation timeout ends at a point in time. -/
theorem deadline?_of_le (hvalid : config.Valid) {now : Duration} (hnow : now.secs < Nat.pow 2 62)
    (htimeout : timeout ≤ config.operationTimeout) :
    deadline? now timeout = some (now + timeout) :=
  deadline?_within hvalid hnow (Nat.zero_le _) htimeout

/-- A token lifetime ends at a second of sixty-four bits. -/
theorem expiry_of_fits (hvalid : config.Valid) {now : Duration} (hnow : now.secs < Nat.pow 2 62) :
    Token.expiry (some now) config.tokenTtl = .ok (now + config.tokenTtl).secs := by
  have hlimit : config.tokenTtl.nanos ≤ 365 * 24 * 60 * 60 * 1000000000 :=
    hvalid.bounded .tokenTtl
  apply if_pos
  change now.nanos / 1000000000 < 4611686018427387904 at hnow
  change (now.nanos + config.tokenTtl.nanos) / 1000000000 < 18446744073709551616
  omega

/-- The parts below a second are added before the sum is cut. -/
theorem secs_add (a b : Duration) :
    (a + b).secs = a.secs + b.secs + (a.subsecNanos + b.subsecNanos) / Duration.second := by
  simp only [Duration.secs, Duration.subsecNanos, Duration.second, Duration.nanos_add]
  omega

/-! ### Guards are only reported -/

theorem fault_guard (hvalid : config.Valid) {e : Event} (hfits : ClocksFit [e])
    (h : fault config e = some error) (hguard : error.isGuard = true) :
    e.reported? = some error := by
  obtain ⟨query, answer⟩ := e
  cases query with
  | device query =>
    cases query with
    | registrationId => exact checked_guard (failure?_eq_some_iff.mp h) rfl hguard
    | credential => exact held_guard (failure?_eq_some_iff.mp h) hguard
    | endorsementKey => exact checked_guard (failure?_eq_some_iff.mp h) rfl hguard
    | storageRootKey => exact checked_guard (failure?_eq_some_iff.mp h) rfl hguard
    | sign data => exact checked_guard (failure?_eq_some_iff.mp h) rfl hguard
    | importKey key => exact h
  | epoch =>
    cases answer with
    | none =>
      obtain rfl := Option.some.inj h
      exact absurd hguard Bool.false_ne_true
    | some now =>
      have hnow := hfits.epoch now (List.mem_singleton.mpr rfl)
      rw [fault, expiry_of_fits hvalid hnow] at h
      exact absurd h (Option.some_ne_none _).symm
  | send request deadline =>
    cases request with
    | requestNonce id body c =>
      exact reported?_of_answered (failure?_eq_some_iff.mp h) unguarded_nonceKey hguard
    | _ => exact reported?_of_answered (failure?_eq_some_iff.mp h) unguarded_outcome hguard
  | _ => exact absurd h (Option.some_ne_none _).symm

theorem KeyCourse.reported (h : KeyCourse config events (.error error) left)
    (hvalid : config.Valid) (hfits : ClocksFit events) (hguard : error.isGuard = true) :
    Reported events error := by
  obtain ⟨before, e, rfl, -, hlast⟩ := h.halts (inTime_of_clockFits hvalid hfits.clock)
  rcases hlast with hfault | ⟨g, own, -, -, hresult, hscope⟩
  · have hmem : e ∈ before ++ [e] := by simp
    have hone : ClocksFit [e] := hfits.mono (by simp)
    exact ⟨e, hmem, fault_guard hvalid hone hfault hguard⟩
  · obtain rfl := Except.error.inj hresult
    rw [not_isGuard_of_scope hscope] at hguard
    exact nomatch hguard

theorem CertificateCourse.reported {result : Except Error Outcome}
    (h : CertificateCourse config events result left) (hresult : result = .error error)
    (hvalid : config.Valid) (hfits : ClocksFit events) (hguard : error.isGuard = true) :
    Reported events error := by
  cases h with
  | nameless hcheck =>
    obtain rfl := Except.error.inj hresult
    exact ⟨⟨.device .registrationId, _⟩, by simp, checked_guard hcheck rfl hguard⟩
  | bare hid hheld =>
    obtain rfl := Except.error.inj hresult
    exact ⟨⟨.device .credential, _⟩, by simp, held_guard hheld hguard⟩
  | @untimed id hid c now hd =>
    have hnow := hfits.clock now (by simp)
    rw [deadline?_of_le hvalid hnow (Std.le_refl _)] at hd
    exact nomatch hd
  | @called id hid c now deadline hd reply =>
    refine ⟨⟨.send (.authenticate id (certificateBody id) c none) deadline, reply⟩, by simp, ?_⟩
    exact reported?_of_answered hresult unguarded_outcome hguard

theorem Registration.reported (h : Registration config mechanism events (.error error) left)
    (hvalid : config.Valid) (hfits : ClocksFit events) (hguard : error.isGuard = true) :
    Reported events error := by
  cases h with
  | refused h =>
    rw [Config.validate_eq_ok_iff.mpr hvalid] at h
    exact nomatch h
  | byKey h => exact h.reported hvalid hfits hguard
  | byCertificate h => exact h.reported rfl hvalid hfits hguard

/-! ### The expiry of a token -/

/-- A token that is signed, right after a look at the clock, for what the lifetime
adds to the time. -/
def DatedToken (config : Config) (events : List Event) (token : String) : Prop :=
  ∃ before now scope signature after, events = before ++ ⟨.epoch, some now⟩ ::
      ⟨.device (.sign (Token.signingInput scope (now + config.tokenTtl).secs)), .ok signature⟩ ::
        after ∧
    Token.ofSignature scope (now + config.tokenTtl).secs signature = .ok token

/-- What is signed is dated by the look at the clock just before. -/
def DatedData (config : Config) (events : List Event) (data : Bytes)
    (answer : Except Error Bytes) : Prop :=
  ∃ before now scope after, events = before ++ ⟨.epoch, some now⟩ ::
      ⟨.device (.sign data), answer⟩ :: after ∧
    data = Token.signingInput scope (now + config.tokenTtl).secs

theorem eq_of_expiry (hvalid : config.Valid) {reading : Option Duration} {expiry : Nat}
    (hfits : ∀ now, reading = some now → now.secs < Nat.pow 2 62)
    (h : Token.expiry reading config.tokenTtl = .ok expiry) :
    ∃ now, reading = some now ∧ expiry = (now + config.tokenTtl).secs := by
  cases reading with
  | none => exact nomatch h
  | some now =>
    rw [expiry_of_fits hvalid (hfits now rfl)] at h
    exact ⟨now, rfl, (Except.ok.inj h).symm⟩

theorem SignedFor.dated {key : Bytes} {scope : String} {expiry : Nat}
    {answer : Except Error Bytes} (h : SignedFor config events key scope expiry answer)
    (hvalid : config.Valid) (hfits : ClocksFit events) :
    ∃ before now after, events = before ++ ⟨.epoch, some now⟩ ::
        ⟨.device (.sign (Token.signingInput scope expiry)), answer⟩ :: after ∧
      expiry = (now + config.tokenTtl).secs := by
  obtain ⟨first, g, reading, after, -, hexpiry, rfl⟩ := h
  obtain ⟨now, rfl, hends⟩ := eq_of_expiry hvalid
    (fun now hnow ↦ hfits.epoch now (by simp [hnow])) hexpiry
  exact ⟨first ++ g.events ++ [⟨.device (.importKey g.key), .ok ()⟩], now, after, by simp, hends⟩

theorem TokenFrom.dated {token : String} (h : TokenFrom config events token)
    (hvalid : config.Valid) (hfits : ClocksFit events) : DatedToken config events token := by
  obtain ⟨key, scope, expiry, signature, hsigned, htoken⟩ := h
  obtain ⟨before, now, after, hsplit, rfl⟩ := hsigned.dated hvalid hfits
  exact ⟨before, now, scope, signature, after, hsplit, htoken⟩

namespace Client

variable {c c' : Client} {p : Polling} {n : Nat} {progress : Progress}

theorem StatusCourse.reported {result : Except Error Outcome}
    (h : StatusCourse p timeout events result) (hresult : result = .error error)
    (hvalid : config.Valid) (htimeout : timeout ≤ config.operationTimeout)
    (hfits : ClocksFit events) (hguard : error.isGuard = true) : Reported events error := by
  cases h with
  | nameless hcheck =>
    obtain rfl := Except.error.inj hresult
    exact ⟨⟨.device .registrationId, _⟩, by simp, checked_guard hcheck rfl hguard⟩
  | bare hid hcred =>
    obtain rfl := Except.error.inj hresult
    exact nomatch hguard
  | @untimed id hid credential hcred now hd =>
    have hnow := hfits.clock now (by simp)
    rw [deadline?_of_le hvalid hnow htimeout] at hd
    exact nomatch hd
  | @called id hid credential hcred now deadline hd reply =>
    refine ⟨⟨.send (statusCall p id credential) deadline, reply⟩, by simp, ?_⟩
    exact reported?_of_answered hresult unguarded_outcome hguard

theorem TurnCourse.reported (h : TurnCourse config p events (.polled (.error error)))
    (hvalid : config.Valid) (hfits : ClocksFit events) (hguard : error.isGuard = true) :
    Reported events error := by
  cases h with
  | @polled now later hleft asked _ hask =>
    have hcut : min config.operationTimeout (leftOver config p later) ≤
        config.operationTimeout := by
      simp only [Duration.le_def, Duration.nanos_min]
      omega
    have hsubset : asked ⊆ ⟨.clock, now⟩ ::
        ⟨.sleep (min config.pollInterval (leftOver config p now)), ()⟩ :: ⟨.clock, later⟩ ::
          asked := by
      intro e hmem
      simp [hmem]
    exact (hask.reported rfl hvalid hcut (hfits.mono hsubset) hguard).mono hsubset

theorem AfterAll.reported {turns : List Turn} (hturns : Turns config p events turns)
    (hall : AfterAll config.attemptBudget p n turns (.finished (.error error)))
    (hvalid : config.Valid) (hfits : ClocksFit events) (hguard : error.isGuard = true) :
    Reported events error := by
  obtain ⟨before, last, rfl, -, -, hdecides⟩ := hall
  obtain ⟨asked, final, rfl, -, hlast⟩ := turns_append_singleton hturns
  cases hdecides with
  | spent => exact nomatch hguard
  | failed =>
    have hfinal : final ⊆ asked ++ final := List.subset_append_right _ _
    exact (hlast.reported hvalid (hfits.mono hfinal) hguard).mono hfinal

/-- A guard that ends an attempt was not the client's own. -/
theorem AttemptCourse.reported {found : Except Error Outcome}
    (h : AttemptCourse c n events (.finished found) c') (hfound : found = .error error)
    (hvalid : c.config.Valid) (hfits : ClocksFit events) (hguard : error.isGuard = true) :
    Reported events error := by
  cases h with
  | @settled started registered reply _ _ hregister hsettles =>
    have hsubset : registered ⊆ ⟨.clock, started⟩ :: (c.announced .registering ++ registered ++
        [⟨.enter (finalState found), ()⟩]) := by
      intro e hmem
      simp [hmem]
    cases hsettles with
    | failed own =>
      obtain rfl := Except.error.inj hfound
      exact ((register_course hregister).reported hvalid (hfits.mono hsubset) hguard).mono hsubset
    | terminal h => exact nomatch hfound
    | stray h hid =>
      obtain rfl := Except.error.inj hfound
      exact nomatch hguard
  | @decided started registered asked _ _ _ turns _ hregister hpending hturns hall =>
    have hsubset : asked ⊆ ⟨.clock, started⟩ :: (c.announced .registering ++ registered ++
        ⟨.enter .assigning, ()⟩ :: asked ++ [⟨.enter (finalState found), ()⟩]) := by
      intro e hmem
      simp [hmem]
    subst hfound
    exact (AfterAll.reported hturns hall hvalid (hfits.mono hsubset) hguard).mono hsubset

/-! ### What an attempt signs -/

theorem AttemptParts.datedData (h : AttemptParts c events) (hvalid : c.config.Valid)
    (hfits : ClocksFit events) {data : Bytes} {answer : Except Error Bytes}
    (hmem : ⟨.device (.sign data), answer⟩ ∈ events) :
    DatedData c.config events data answer := by
  obtain ⟨key, scope, expiry, rfl, hsigned⟩ := h.signedFor hmem
  obtain ⟨before, now, after, hsplit, rfl⟩ := hsigned.dated hvalid hfits
  exact ⟨before, now, scope, after, hsplit, rfl⟩

/-! ### Construction -/

theorem connect_of_error {m : Type → Type} [Monad m]
    {make : Config → m (Except Error Protocol)} (h : config.validate = .error error) :
    Client.connect config mechanism make = pure (.error error) := by
  rw [Client.connect, h]

theorem connect_of_valid {m : Type → Type} [Monad m] [LawfulMonad m]
    {make : Config → m (Except Error Protocol)} (h : config.Valid) :
    Client.connect config mechanism make =
      (fun found ↦ found.bind (Client.new config mechanism)) <$> make config := by
  rw [Client.connect, Config.validate_eq_ok_iff.mpr h, map_eq_pure_bind]
  simp only
  congr 1
  funext found
  cases found <;> rfl

/-- A factory that notes what it was called with. -/
def noting {m : Type → Type} [Monad m] (make : Config → m (Except Error Protocol))
    (config : Config) : StateT (List Config) m (Except Error Protocol) :=
  fun made ↦ (fun found ↦ (found, made ++ [config])) <$> make config

/-- A client that was made, and then registered any number of times. -/
inductive Had (config : Config) (mechanism : Mechanism) : Client → Prop
  | new {spoken : Protocol} {c : Client} (h : Client.new config mechanism spoken = .ok c) :
      Had config mechanism c
  | connected {σ : Type} {make : Config → StateM σ (Except Error Protocol)} {s s' : σ} {c : Client}
      (h : (Client.connect config mechanism make).run s = (.ok c, s')) : Had config mechanism c
  | registered {c c' : Client} {n : Nat} {events : List Event} {found : Except Error Outcome}
      (h : Had config mechanism c) (hrun : Runs (c.attempt n) events (.finished found, c')) :
      Had config mechanism c'

theorem new_of_connect {σ : Type} {make : Config → StateM σ (Except Error Protocol)} {s s' : σ}
    (h : (Client.connect config mechanism make).run s = (.ok c, s')) :
    ∃ spoken, Client.new config mechanism spoken = .ok c := by
  cases hvalidate : config.validate with
  | error error =>
    rw [connect_of_error hvalidate] at h
    exact nomatch (Prod.mk.inj h).1
  | ok _ =>
    rw [connect_of_valid (Config.validate_eq_ok_iff.mp hvalidate), StateT.run_map] at h
    have hfound := (Prod.mk.inj h).1
    cases hmade : ((make config).run s).1 with
    | error error =>
      simp only [hmade] at hfound
      exact nomatch hfound
    | ok spoken =>
      simp only [hmade] at hfound
      exact ⟨spoken, hfound⟩

theorem Had.kept (h : Had config mechanism c) :
    config.Valid ∧ c.config = config ∧ c.mechanism = mechanism := by
  induction h with
  | new h =>
    obtain ⟨hvalid, -, rfl⟩ := new_eq_ok_iff.mp h
    exact ⟨hvalid, rfl, rfl⟩
  | connected h =>
    obtain ⟨spoken, hnew⟩ := new_of_connect h
    obtain ⟨hvalid, -, rfl⟩ := new_eq_ok_iff.mp hnew
    exact ⟨hvalid, rfl, rfl⟩
  | registered _ hrun ih =>
    obtain ⟨hvalid, rfl, rfl⟩ := ih
    exact ⟨hvalid, attempt_config hrun⟩

theorem connect_noting {m : Type → Type} [Monad m] [LawfulMonad m]
    {make : Config → m (Except Error Protocol)} {made : List Config} (h : config.Valid) :
    (Client.connect config mechanism (noting make)).run made =
      (fun found ↦ (found.bind (Client.new config mechanism), made ++ [config])) <$>
        make config := by
  rw [connect_of_valid h, StateT.run_map]
  unfold noting StateT.run
  rw [Functor.map_map]

/-! ### Admitted clients -/

/-- What a run of an attempt stays within while both clocks are within range. -/
structure WithinBounds (c : Client) (events : List Event) (progress : Progress) : Prop where
  deadline : ∀ now, ⟨.clock, now⟩ ∈ events →
    deadline? now c.config.operationTimeout = some (now + c.config.operationTimeout)
  /-- The timeout of a poll is cut to what is left of the budget. -/
  cutDeadline : ∀ now p later, ⟨.clock, now⟩ ∈ events →
    deadline? now (min c.config.operationTimeout (c.remaining p later)) =
      some (now + min c.config.operationTimeout (c.remaining p later))
  lifetime : ∀ now, ⟨.epoch, some now⟩ ∈ events →
    Token.expiry (some now) c.config.tokenTtl = .ok (now + c.config.tokenTtl).secs ∧
      (now + c.config.tokenTtl).secs = now.secs + c.config.tokenTtl.secs +
        (now.subsecNanos + c.config.tokenTtl.subsecNanos) / Duration.second
  signed : ∀ data answer, ⟨.device (.sign data), answer⟩ ∈ events →
    DatedData c.config events data answer
  bearing : ∀ request ∈ calls events, ∀ token, request.bearerToken = some token →
    DatedToken c.config events token
  /-- A guard that ends the attempt was not the client's own. -/
  guard : ∀ error, progress = .finished (.error error) → error.isGuard = true →
    Reported events error

/-- What is known of a client that was made, whatever has become of it since. -/
structure Admitted (c : Client) : Prop where
  valid : c.config.Valid
  /-- No registration is refused for its configuration. -/
  accepted : c.config.validate = .ok ()
  /-- No poll is refused for the operation it asks for. -/
  operation : ∀ {before asked : List Event} {p q : Polling} {c' : Client} {k : Nat},
    Runs c.begin before (.polling p, c') → Runs (c'.polls k (.polling p)) asked (.polling q) →
      q = p ∧ q.operationId.isEmpty = false
  runs : ∀ {n events progress c'}, Runs (c.attempt n) events (progress, c') →
    ClocksFit events → WithinBounds c events progress

structure Admission (config : Config) (mechanism : Mechanism) : Prop where
  new : ∀ spoken c, Client.new config mechanism spoken = .ok c ↔
    config.Valid ∧ spoken = config.protocol ∧ c = ⟨config, mechanism, .notStarted⟩
  refused : ∀ {m : Type → Type} [Monad m] [LawfulMonad m]
    (make : Config → m (Except Error Protocol)) (made : List Config), ¬ config.Valid →
      ∃ error, (Client.connect config mechanism (noting make)).run made = pure (.error error, made)
  /-- The service of a valid configuration is made once. -/
  connected : ∀ {m : Type → Type} [Monad m] [LawfulMonad m]
    (make : Config → m (Except Error Protocol)) (made : List Config), config.Valid →
      (Client.connect config mechanism (noting make)).run made =
        (fun found ↦ (found.bind (Client.new config mechanism), made ++ [config])) <$> make config
  had : ∀ c, Had config mechanism c → c.config = config ∧ c.mechanism = mechanism ∧ Admitted c

theorem withinBounds (hvalid : c.config.Valid) (hrun : Runs (c.attempt n) events (progress, c'))
    (hfits : ClocksFit events) : WithinBounds c events progress where
  deadline := fun now hmem ↦ deadline?_of_le hvalid (hfits.clock now hmem) (Std.le_refl _)
  cutDeadline := by
    intro now p later hmem
    apply deadline?_of_le hvalid (hfits.clock now hmem)
    simp only [Duration.le_def, Duration.nanos_min]
    omega
  lifetime := fun now hmem ↦ ⟨expiry_of_fits hvalid (hfits.epoch now hmem), secs_add _ _⟩
  signed := fun _ _ hmem ↦ (runs_attempt_iff.mp hrun).parts.datedData hvalid hfits hmem
  bearing := fun _ hmem _ htoken ↦
    ((runs_attempt_iff.mp hrun).parts.tokenFrom hmem htoken).dated hvalid hfits
  guard := by
    rintro error rfl hguard
    exact (runs_attempt_iff.mp hrun).reported rfl hvalid hfits hguard

theorem polling_named {before asked : List Event} {p q : Polling} {k : Nat}
    (hbegin : Runs c.begin before (.polling p, c'))
    (hpolls : Runs (c'.polls k (.polling p)) asked (.polling q)) :
    q = p ∧ q.operationId.isEmpty = false := by
  obtain ⟨started, registered, reply, authorization, -, hcases⟩ := runs_begin_iff.mp hbegin
  rcases hcases with ⟨found, -, hsettled, -⟩ | ⟨outcome, id, -, hpending, hp, -, -⟩
  · exact nomatch hsettled
  obtain rfl := Progress.polling.inj hp
  obtain ⟨turns, -, rfl, -⟩ := (runs_polls_iff hpending.named k).mp hpolls
  exact ⟨rfl, by simpa using hpending.named⟩

/-- Construction admits a configuration only once it is known to be valid, and then
no attempt fails by the client's own guards or dates a token otherwise than by its
lifetime. -/
theorem construction_admits (config : Config) (mechanism : Mechanism) :
    Admission config mechanism where
  new := fun _ _ ↦ new_eq_ok_iff
  refused := by
    intro m _ _ make made hinvalid
    cases hvalidate : config.validate with
    | ok _ => exact absurd (Config.validate_eq_ok_iff.mp hvalidate) hinvalid
    | error error => exact ⟨error, by rw [connect_of_error hvalidate]; rfl⟩
  connected := fun _ _ hvalid ↦ connect_noting hvalid
  had := by
    intro c hhad
    obtain ⟨hvalid, rfl, rfl⟩ := hhad.kept
    exact ⟨rfl, rfl, {
      valid := hvalid
      accepted := Config.validate_eq_ok_iff.mpr hvalid
      operation := polling_named
      runs := withinBounds hvalid }⟩

theorem clocksFit_follow_granted {α : Type} (p : Program α) : ClocksFit (p.follow granted).1 where
  clock := by
    intro now hmem
    have hanswer : now = .zero := answer_of_mem_follow hmem
    rw [hanswer]
    decide
  epoch := by
    intro now hmem
    have hanswer : some now = some .zero := answer_of_mem_follow hmem
    rw [Option.some.inj hanswer]
    decide

/-- A new client with the default durations, and an attempt in which it signs. -/
theorem construction_admits_granted :
    ∃ (config : Config) (c c' : Client) (events : List Event) (progress : Progress),
      Client.new config .symmetricKey .https = .ok c ∧ Runs (c.attempt 1) events (progress, c') ∧
      ClocksFit events ∧ Topic.sign ∈ topics events ∧ WithinBounds c events progress := by
  let config : Config := .ofScope "0ne00000001" .https
  let c : Client := ⟨config, .symmetricKey, .notStarted⟩
  have hvalid : config.Valid := Config.valid_ofScope (by decide) .https
  have hnew : Client.new config .symmetricKey .https = .ok c := new_eq_ok_iff.mpr ⟨hvalid, rfl, rfl⟩
  have hrun := runs_follow granted (c.attempt 1)
  have hfits := clocksFit_follow_granted (c.attempt 1)
  have hsign : Topic.sign ∈ topics ((c.attempt 1).follow granted).1 := by decide +kernel
  obtain ⟨-, -, hadmitted⟩ := (construction_admits config .symmetricKey).had c (.new hnew)
  exact ⟨config, c, _, _, _, hnew, hrun, hfits, hsign, hadmitted.runs hrun hfits⟩

end Client
end Enrollment
