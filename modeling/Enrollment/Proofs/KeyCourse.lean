import Enrollment.Proofs.KeyHandshake
namespace Enrollment

/-!
# What the courses of a handshake by key have in common

In which order the questions are asked, what went before an import, a signature
or a call, which question ends the handshake, and what is left when it ends.
-/

open Program Session

/-- The questions of a handshake by key before the register call, in their order. -/
def keySteps : List Topic :=
  [.registrationId, .endorsementKey, .storageRootKey, .credential, .clock, .call .requestNonce,
    .importKey, .epoch, .sign, .clock]

def Clean (config : Config) (events : List Event) : Prop :=
  ∀ e ∈ events, fault config e = none

theorem clean_append_iff {config : Config} {before after : List Event} :
    Clean config (before ++ after) ↔ Clean config before ∧ Clean config after :=
  List.forall_mem_append

theorem clean_cons_iff {config : Config} {e : Event} {events : List Event} :
    Clean config (e :: events) ↔ fault config e = none ∧ Clean config events :=
  List.forall_mem_cons

theorem clean_nil (config : Config) : Clean config [] := by
  simp [Clean]

variable {config : Config} {events : List Event} {result : Except Error Outcome}
  {authorization : Authorization}

/-! ### What has been asked is in order -/

theorem fault_registrationId {id : String} (h : id ≠ "") :
    fault config ⟨.device .registrationId, .ok id⟩ = none := by
  simp [fault, checked, Except.bind, h]

theorem fault_endorsementKey {key : Bytes} (h : key ≠ []) :
    fault config ⟨.device .endorsementKey, .ok key⟩ = none := by
  simp [fault, checked, Except.bind, h]

theorem fault_storageRootKey {key : Bytes} (h : key ≠ []) :
    fault config ⟨.device .storageRootKey, .ok key⟩ = none := by
  simp [fault, checked, Except.bind, h]

theorem fault_sign {data signature : Bytes} (h : signature ≠ []) :
    fault config ⟨.device (.sign data), .ok signature⟩ = none := by
  simp [fault, checked, Except.bind, h]

theorem KeyIdentity.Complete.clean {i : KeyIdentity} (h : i.Complete) :
    Clean config i.events := by
  rw [KeyIdentity.events, clean_cons_iff, clean_cons_iff, clean_cons_iff]
  exact ⟨fault_registrationId h.registrationId, fault_endorsementKey h.endorsementKey,
    fault_storageRootKey h.storageRootKey, clean_nil config⟩

theorem Grant.clean (g : Grant config) : Clean config g.events := by
  have hsend : fault config ⟨.send g.request g.deadline, g.reply⟩ = none := by
    simp only [fault, callFault, Grant.request]
    exact failure?_eq_none_iff.mpr ⟨g.key, g.brings⟩
  rw [Grant.events, clean_append_iff, clean_cons_iff, clean_cons_iff, clean_cons_iff]
  exact ⟨g.complete.clean, rfl, rfl, hsend, clean_nil config⟩

theorem TokenMade.clean {registrationId : String} (t : TokenMade config registrationId) :
    Clean config t.events := by
  have hepoch : fault config ⟨.epoch, t.now⟩ = none := by
    simp [fault, t.dated]
  rw [TokenMade.events, clean_cons_iff, clean_cons_iff]
  exact ⟨hepoch, fault_sign t.signed, clean_nil config⟩

theorem Unidentified.halts {error : Error} (h : Unidentified config events error) :
    ∃ before e, events = before ++ [e] ∧ Clean config before ∧ fault config e = some error := by
  cases h with
  | nameless h => exact ⟨[], _, rfl, clean_nil config, h⟩
  | @unendorsed id hid _ _ h =>
    refine ⟨[⟨.device .registrationId, .ok id⟩], _, rfl, ?_, h⟩
    exact clean_cons_iff.mpr ⟨fault_registrationId hid, clean_nil config⟩
  | @rootless id hid key hkey _ _ h =>
    refine ⟨[⟨.device .registrationId, .ok id⟩, ⟨.device .endorsementKey, .ok key⟩], _, rfl, ?_, h⟩
    exact clean_cons_iff.mpr ⟨fault_registrationId hid,
      clean_cons_iff.mpr ⟨fault_endorsementKey hkey, clean_nil config⟩⟩

theorem Untokened.topics_prefix {registrationId : String} {error : Error}
    (h : Untokened config registrationId events error) : topics events <+: [.epoch, .sign] := by
  cases h <;> exact ⟨_, rfl⟩

theorem AfterImport.concludes {g : Grant config} {token : Option String}
    (h : AfterImport g events result token) :
    Concludes config [.epoch, .sign, .clock] events result := by
  cases h with
  | untokened h => exact .stopped (h.topics_prefix.trans ⟨_, rfl⟩)
  | untimed t h => exact .stopped ⟨_, rfl⟩
  | @called t now deadline hd reply =>
    apply Concludes.called (t.events ++ [⟨.clock, now⟩]) (g.registerCall t.token) deadline reply
    · simp
    · rfl
    · rfl

theorem AfterImport.topics_prefix {g : Grant config} {token : Option String}
    (h : AfterImport g events result token) :
    topics events <+: [.epoch, .sign, .clock, .call .authenticate] :=
  h.concludes.order

theorem KeyCourse.concludes (h : KeyCourse config events result authorization) :
    Concludes config keySteps events result := by
  cases h with
  | unidentified h =>
    refine .stopped ?_
    cases h <;> exact ⟨_, rfl⟩
  | @imported g rest _ _ h =>
    have hgranted : topics (g.events ++ [⟨.device (.importKey g.key), .ok ()⟩]) =
        [.registrationId, .endorsementKey, .storageRootKey, .credential, .clock,
          .call .requestNonce, .importKey] := rfl
    have hall := h.concludes.prepend hgranted
    rw [List.append_assoc] at hall
    exact hall
  | _ => exact .stopped ⟨_, rfl⟩

/-- Whatever was imported came with the nonce reply. -/
theorem KeyCourse.grant_of_importKey (h : KeyCourse config events result authorization)
    {key : Bytes} {answer : Except Error Unit}
    (hmem : ⟨.device (.importKey key), answer⟩ ∈ events) :
    ∃ g : Grant config, g.key = key ∧
      g.events ++ [⟨.device (.importKey key), answer⟩] <+: events := by
  cases h with
  | unidentified h => cases h <;> simp at hmem
  | @unimported g error =>
    have hlast : key = g.key ∧ answer = .error error := by
      simpa [KeyIdentity.events, Grant.events] using hmem
    obtain ⟨rfl, rfl⟩ := hlast
    exact ⟨g, rfl, List.prefix_refl _⟩
  | @imported g rest _ _ h =>
    have hrest : ⟨.device (.importKey key), answer⟩ ∉ rest := by
      intro hin
      have htopic := h.topics_prefix.subset (topic_mem hin)
      simp [Query.topic, DeviceQuery.topic] at htopic
    have hkey : key = g.key ∧ answer = .ok () := by
      simpa [KeyIdentity.events, Grant.events, hrest] using hmem
    obtain ⟨rfl, rfl⟩ := hkey
    exact ⟨g, rfl, rest, by simp⟩
  | _ => simp [KeyIdentity.events] at hmem

/-- Nothing was signed before a key was imported, and only what a token needs. -/
theorem KeyCourse.grant_of_sign (h : KeyCourse config events result authorization) {data : Bytes}
    {answer : Except Error Bytes} (hmem : ⟨.device (.sign data), answer⟩ ∈ events) :
    ∃ (g : Grant config) (scope : String) (now : Option Duration) (expiry : Nat),
      Token.scope config.idScope g.identity.registrationId = .ok scope ∧
      Token.expiry now config.tokenTtl = .ok expiry ∧ data = Token.signingInput scope expiry ∧
      g.events ++ [⟨.device (.importKey g.key), .ok ()⟩, ⟨.epoch, now⟩,
        ⟨.device (.sign data), answer⟩] <+: events := by
  cases h with
  | unidentified h => cases h <;> simp at hmem
  | imported g h =>
    cases h with
    | untokened h =>
      cases h with
      | @unsigned scope hscope now expiry hexpiry answer' error h =>
        have hlast : data = Token.signingInput scope expiry ∧ answer = answer' := by
          simpa [KeyIdentity.events, Grant.events] using hmem
        obtain ⟨rfl, rfl⟩ := hlast
        exact ⟨g, scope, now, expiry, hscope, hexpiry, rfl, List.prefix_refl _⟩
      | _ => simp [KeyIdentity.events, Grant.events] at hmem
    | untimed t h | called t hd =>
      have hlast : data = Token.signingInput t.scope t.expiry ∧ answer = .ok t.signature := by
        simpa [KeyIdentity.events, Grant.events, TokenMade.events] using hmem
      obtain ⟨rfl, rfl⟩ := hlast
      exact ⟨g, t.scope, t.now, t.expiry, t.inScope, t.dated, rfl, _,
        by simp [TokenMade.events]; rfl⟩
  | _ => simp [KeyIdentity.events, Grant.events] at hmem

/-- The calls of a handshake, and what came before each of them. -/
theorem KeyCourse.calls_cases (h : KeyCourse config events result authorization) :
    calls events = [] ∨
      (∃ (i : KeyIdentity) (c : Credential), i.Complete ∧
        i.events ++ [⟨.device .credential, .ok (some c)⟩] <+: events ∧
        calls events = [.requestNonce i.registrationId i.body c]) ∨
      ∃ (g : Grant config) (t : TokenMade config g.identity.registrationId),
        g.events ++ ⟨.device (.importKey g.key), .ok ()⟩ :: t.events <+: events ∧
        calls events = [g.request, g.registerCall t.token] := by
  cases h with
  | unidentified h => cases h <;> exact Or.inl rfl
  | bare | untimed => exact Or.inl rfl
  | @ungranted i hi c => exact Or.inr (Or.inl ⟨i, c, hi, ⟨_, rfl⟩, rfl⟩)
  | unimported g =>
    exact Or.inr (Or.inl ⟨g.identity, g.credential, g.complete, ⟨_, rfl⟩, rfl⟩)
  | imported g h =>
    cases h with
    | untokened h =>
      refine Or.inr (Or.inl ⟨g.identity, g.credential, g.complete, ⟨_, rfl⟩, ?_⟩)
      cases h <;> rfl
    | untimed t h =>
      exact Or.inr (Or.inl ⟨g.identity, g.credential, g.complete, ⟨_, rfl⟩, rfl⟩)
    | @called t now deadline hd reply =>
      have hbefore : g.events ++ ⟨.device (.importKey g.key), .ok ()⟩ :: t.events <+:
          g.events ++ ⟨.device (.importKey g.key), .ok ()⟩ :: (t.events ++
            [⟨.clock, now⟩, ⟨.send (g.registerCall t.token) deadline, reply⟩]) :=
        ⟨[⟨.clock, now⟩, ⟨.send (g.registerCall t.token) deadline, reply⟩], by simp⟩
      exact Or.inr (Or.inr ⟨g, t, hbefore, rfl⟩)

/-! ### What ends a handshake -/

theorem Untokened.halts {registrationId : String} {error : Error}
    (h : Untokened config registrationId events error) :
    (events = [] ∧ Token.scope config.idScope registrationId = .error error) ∨
      ∃ before e, events = before ++ [e] ∧ Clean config before ∧
        fault config e = some error := by
  cases h with
  | unscoped h => exact Or.inl ⟨rfl, h⟩
  | undated hscope h => exact Or.inr ⟨[], _, rfl, clean_nil config, h⟩
  | @unsigned scope hscope now expiry hexpiry _ _ h =>
    refine Or.inr ⟨[⟨.epoch, now⟩], _, rfl, ?_, h⟩
    have hepoch : fault config ⟨.epoch, now⟩ = none := by
      simp [fault, hexpiry]
    exact clean_cons_iff.mpr ⟨hepoch, clean_nil config⟩

/-- Every wait that is begun can end at a point in time. -/
def InTime (config : Config) (events : List Event) : Prop :=
  ∀ now : Duration, ⟨.clock, now⟩ ∈ events → deadline? now config.operationTimeout ≠ none

theorem AfterImport.halts {g : Grant config} {token : Option String}
    (h : AfterImport g events result token) (htime : InTime config events) :
    (events = [] ∧ ∃ error, result = .error error ∧
        Token.scope config.idScope g.identity.registrationId = .error error) ∨
      ∃ before e, events = before ++ [e] ∧ Clean config before ∧
        fault config e = failure? result := by
  cases h with
  | @untokened _ error h =>
    rcases h.halts with ⟨hnil, hscope⟩ | hlast
    · exact Or.inl ⟨hnil, error, rfl, hscope⟩
    · exact Or.inr hlast
  | @untimed t now h => exact absurd h (htime now (by simp))
  | @called t now deadline hd reply =>
    refine Or.inr ⟨t.events ++ [⟨.clock, now⟩], ⟨.send (g.registerCall t.token) deadline, reply⟩,
      by simp, ?_, rfl⟩
    exact clean_append_iff.mpr ⟨t.clean, clean_cons_iff.mpr ⟨rfl, clean_nil config⟩⟩

/-- The last question failed, or else what the device imported is of no use
because no token could be made for its id. -/
theorem KeyCourse.halts (h : KeyCourse config events result authorization)
    (htime : InTime config events) :
    ∃ before e, events = before ++ [e] ∧ Clean config before ∧
      (fault config e = failure? result ∨
        ∃ (g : Grant config) (error : Error), before = g.events ∧
          e = ⟨.device (.importKey g.key), .ok ()⟩ ∧ result = .error error ∧
          Token.scope config.idScope g.identity.registrationId = .error error) := by
  cases h with
  | unidentified h =>
    obtain ⟨before, e, rfl, hclean, hfault⟩ := h.halts
    exact ⟨before, e, rfl, hclean, Or.inl hfault⟩
  | bare hi h => exact ⟨_, _, rfl, hi.clean, Or.inl h⟩
  | @untimed i hi c now h => exact absurd h (htime now (by simp))
  | @ungranted i hi c now deadline hd reply error h =>
    refine ⟨i.events ++ [⟨.device .credential, .ok (some c)⟩, ⟨.clock, now⟩], _, by simp, ?_,
      Or.inl h⟩
    exact clean_append_iff.mpr
      ⟨hi.clean, clean_cons_iff.mpr ⟨rfl, clean_cons_iff.mpr ⟨rfl, clean_nil config⟩⟩⟩
  | unimported g => exact ⟨g.events, _, rfl, g.clean, Or.inl rfl⟩
  | @imported g rest _ _ h =>
    have hrest : InTime config rest := fun now hnow ↦ htime now (by simp [hnow])
    rcases h.halts hrest with ⟨rfl, error, rfl, hscope⟩ | ⟨before, e, rfl, hclean, hfault⟩
    · exact ⟨g.events, _, rfl, g.clean, Or.inr ⟨g, error, rfl, rfl, rfl, hscope⟩⟩
    · refine ⟨g.events ++ ⟨.device (.importKey g.key), .ok ()⟩ :: before, e, by simp, ?_,
        Or.inl hfault⟩
      exact clean_append_iff.mpr ⟨g.clean, clean_cons_iff.mpr ⟨rfl, hclean⟩⟩

/-! ### What a handshake leaves -/

theorem Unidentified.calls_eq {error : Error} (h : Unidentified config events error) :
    calls events = [] := by
  cases h <;> rfl

theorem Untokened.calls_eq {registrationId : String} {error : Error}
    (h : Untokened config registrationId events error) : calls events = [] := by
  cases h <;> rfl

theorem AfterImport.bearer_iff {g : Grant config} {token : Option String}
    (h : AfterImport g events result token) (htime : InTime config events) {text : String} :
    token = some text ↔ ∃ id body c, .authenticate id body c (some text) ∈ calls events := by
  cases h with
  | untokened h => simp [h.calls_eq]
  | @untimed t now h => exact absurd h (htime now (by simp))
  | called t hd => simp [Grant.registerCall, eq_comm]

theorem KeyCourse.bearer_iff (h : KeyCourse config events result authorization)
    (htime : InTime config events) {token : String} :
    authorization.bearerToken = some token ↔
      ∃ id body c, .authenticate id body c (some token) ∈ calls events := by
  cases h with
  | unidentified h => simp [h.calls_eq, Authorization.empty]
  | @imported g rest _ _ h =>
    have hrest : InTime config rest := fun now hnow ↦ htime now (by simp [hnow])
    simpa [Grant.request] using h.bearer_iff hrest
  | _ => simp [Authorization.empty, Grant.request]

theorem Unidentified.credential_not_mem {error : Error} (h : Unidentified config events error)
    (answer : Except Error (Option Credential)) : ⟨.device .credential, answer⟩ ∉ events := by
  cases h <;> simp

theorem AfterImport.credential_not_mem {g : Grant config} {token : Option String}
    (h : AfterImport g events result token) (answer : Except Error (Option Credential)) :
    ⟨.device .credential, answer⟩ ∉ events := by
  intro hmem
  have htopic := h.topics_prefix.subset (topic_mem hmem)
  simp [Query.topic, DeviceQuery.topic] at htopic

theorem AfterImport.nonce_not_mem {g : Grant config} {token : Option String}
    (h : AfterImport g events result token) {id : String} {body : Bytes} {c : Credential} :
    .requestNonce id body c ∉ calls events := by
  intro hmem
  obtain ⟨deadline, reply, hsend⟩ := mem_calls_iff.mp hmem
  have htopic := h.topics_prefix.subset (topic_mem hsend)
  simp [Query.topic, Call.operation] at htopic

/-- The credential is kept as soon as the device has shown it. -/
theorem KeyCourse.credential_iff (h : KeyCourse config events result authorization)
    {c : Credential} :
    authorization.credential = some c ↔ ⟨.device .credential, .ok (some c)⟩ ∈ events := by
  cases h with
  | unidentified h => simp [h.credential_not_mem, Authorization.empty]
  | @bare i hi answer error h =>
    have hanswer : answer ≠ .ok (some c) := by
      rintro rfl
      simp [fault, held, Except.bind] at h
    simp [Authorization.empty, KeyIdentity.events, hanswer.symm]
  | imported g h => simp [KeyIdentity.events, Grant.events, h.credential_not_mem, eq_comm]
  | _ => simp [KeyIdentity.events, Grant.events, eq_comm]

/-- The credential is kept just when a nonce was asked for with it. -/
theorem KeyCourse.credential_iff_nonce (h : KeyCourse config events result authorization)
    (htime : InTime config events) {c : Credential} :
    authorization.credential = some c ↔
      ∃ id body, .requestNonce id body c ∈ calls events := by
  cases h with
  | unidentified h => simp [h.calls_eq, Authorization.empty]
  | bare hi h => simp [Authorization.empty]
  | @untimed i hi c now h => exact absurd h (htime now (by simp))
  | ungranted => simp [eq_comm]
  | unimported g => simp [Grant.request, eq_comm]
  | imported g h =>
    have hnone (id : String) (body : Bytes) : .requestNonce id body c ∉ calls _ := h.nonce_not_mem
    constructor
    · intro hc
      obtain rfl := Option.some.inj hc
      exact ⟨g.identity.registrationId, g.identity.body, by simp [Grant.request]⟩
    · rintro ⟨id, body, hmem⟩
      have hfirst : .requestNonce id body c = g.request := by simpa [hnone] using hmem
      obtain ⟨-, -, rfl⟩ := Call.requestNonce.inj hfirst
      rfl

end Enrollment
