import Enrollment.Identity.Software
import Enrollment.Proofs.KeyDiscipline
import Enrollment.Proofs.NonceReply
import Enrollment.Proofs.TokenReader
namespace Enrollment

/-!
# Device and service agree on the key

A device that keeps its key in software answers each question as it is at that
moment.  If the service hands out a key in a reply that can be read, the register
call goes out, and with that key the service finds its token signed.
-/

open Program Session

namespace SoftwareDevice

/-- The device as it is after these questions. -/
def after : SoftwareDevice → List Event → SoftwareDevice
  | d, [] => d
  | d, ⟨.device query, _⟩ :: events => after (d.answer query).2 events
  | d, _ :: events => after d events

/-- The questions to the device among these were answered by it. -/
def Answers : SoftwareDevice → List Event → Prop
  | _, [] => True
  | d, ⟨.device query, answer⟩ :: events =>
    answer = (d.answer query).1 ∧ Answers (d.answer query).2 events
  | d, _ :: events => Answers d events

theorem answers_device_cons_iff {d : SoftwareDevice} {query : DeviceQuery} {answer : query.Answer}
    {events : List Event} :
    d.Answers (⟨.device query, answer⟩ :: events) ↔
      answer = (d.answer query).1 ∧ (d.answer query).2.Answers events := Iff.rfl

theorem answers_append_iff {d : SoftwareDevice} {before rest : List Event} :
    d.Answers (before ++ rest) ↔ d.Answers before ∧ (d.after before).Answers rest := by
  induction before generalizing d with
  | nil => exact ⟨fun h ↦ ⟨trivial, h⟩, fun h ↦ h.2⟩
  | cons e before ih =>
    obtain ⟨query, answer⟩ := e
    cases query with
    | device query =>
      rw [List.cons_append, answers_device_cons_iff, answers_device_cons_iff, ih, and_assoc]
      rfl
    | _ => exact ih

/-- What the device shows of itself. -/
def identity (d : SoftwareDevice) : KeyIdentity :=
  ⟨d.registrationId, d.endorsementKey, d.storageRootKey⟩

/-- No question changes what the device shows. -/
theorem identity_answer (d : SoftwareDevice) (q : DeviceQuery) :
    (d.answer q).2.identity = d.identity := by
  cases q with
  | importKey key =>
    simp only [answer, importKey]
    split <;> rfl
  | _ => rfl

theorem answers_identity_iff {d : SoftwareDevice} {i : KeyIdentity} :
    d.Answers i.events ↔ i = d.identity := by
  obtain ⟨id, ek, srk⟩ := i
  simp [KeyIdentity.events, Answers, answer, identity]

/-- A run in which the device answers what it is asked, and all else is answered
as given. -/
def follow {α : Type} (answer : (q : Query) → q.Answer) :
    SoftwareDevice → Program α → List Event × α
  | _, .done a => ([], a)
  | d, .ask (.device query) next =>
    let rest := follow answer (d.answer query).2 (next (d.answer query).1)
    (⟨.device query, (d.answer query).1⟩ :: rest.1, rest.2)
  | d, .ask query next =>
    let rest := follow answer d (next (answer query))
    (⟨query, answer query⟩ :: rest.1, rest.2)

theorem runs_follow {α : Type} (answer : (q : Query) → q.Answer) (d : SoftwareDevice)
    (p : Program α) : Runs p (d.follow answer p).1 (d.follow answer p).2 := by
  induction p generalizing d with
  | done a => exact .done a
  | ask query next ih =>
    cases query with
    | device query => exact .ask _ _ (ih (d.answer query).1 (d.answer query).2)
    | _ => exact .ask _ _ (ih _ d)

theorem answers_follow {α : Type} (answer : (q : Query) → q.Answer) (d : SoftwareDevice)
    (p : Program α) : d.Answers (d.follow answer p).1 := by
  induction p generalizing d with
  | done a => trivial
  | ask query next ih =>
    cases query with
    | device query => exact ⟨rfl, ih (d.answer query).1 (d.answer query).2⟩
    | _ => exact ih _ d

theorem answer_of_mem_follow {α : Type} {answer : (q : Query) → q.Answer} {d : SoftwareDevice}
    {p : Program α} {e : Event} (h : e ∈ (d.follow answer p).1)
    (hother : ∀ query, e.query ≠ .device query) : e.answer = answer e.query := by
  induction p generalizing d with
  | done a => exact nomatch h
  | ask query next ih =>
    cases query with
    | device query =>
      rcases List.mem_cons.mp h with rfl | hrest
      · exact absurd rfl (hother query)
      · exact ih _ hrest
    | _ =>
      rcases List.mem_cons.mp h with rfl | hrest
      · rfl
      · exact ih _ hrest

theorem signature_of_ne_nil {key : Bytes} (h : key ≠ []) (data : Bytes) :
    signature key data = .ok (Hmac.sign key data) := by
  simp [signature, h]

theorem sign_ne_nil (key data : Bytes) : Hmac.sign key data ≠ [] :=
  List.ne_nil_of_length_pos (Hmac.length_sign key data ▸ by decide)

theorem importKey_of_ne_nil (d : SoftwareDevice) {key : Bytes} (h : key ≠ []) :
    d.importKey key = (.ok (), { d with importedKey := some key }) := by
  simp [importKey, h]

end SoftwareDevice

/-- The surroundings in which a software device is registered under a valid
configuration: it answers for itself, both clocks are far from their ends, and
what the service hands out is a key, in an object with readable members. -/
structure Granting (readable : Json.Members → Prop) (config : Config) (d : SoftwareDevice)
    (key : Bytes) (events : List Event) : Prop where
  valid : config.Valid
  resource : ∃ scope, Token.scope config.idScope d.registrationId = .ok scope
  endorsementKey : d.endorsementKey ≠ []
  storageRootKey : d.storageRootKey ≠ []
  keyed : key ≠ []
  device : d.Answers events
  clock : ClockFits 62 events
  epoch : ∀ reading : Option Duration, ⟨.epoch, reading⟩ ∈ events →
    ∃ now, reading = some now ∧ now.secs < Nat.pow 2 62
  nonce : ∀ (request : Call) (deadline : Duration) (reply : Reply),
    ⟨.send request deadline, reply⟩ ∈ events → request.operation = .requestNonce →
    ∃ body members, reply = .accepted (.delivered (.ok (some body))) ∧
      Json.HasMembers body members ∧ NonceReply.Carries (Base64.encode key) members ∧
      readable members

/-- The register call goes out, and whoever holds the key finds its token signed,
for the registration's path and up to the end of the token's lifetime. -/
def TokenAgreed (config : Config) (d : SoftwareDevice) (key : Bytes) (events : List Event) : Prop :=
  ∃ token content now,
    calls events = [.requestNonce d.registrationId d.identity.body .serverAuthOnly,
      .authenticate d.registrationId d.identity.body .serverAuthOnly (some token)] ∧
    ⟨.epoch, some now⟩ ∈ events ∧
    Token.read? token = some content ∧ content.SignedBy key ∧
    content.scope = config.idScope ++ "/registrations/" ++ d.registrationId ∧
    content.expiry = decimal (now + config.tokenTtl).secs

namespace Granting

variable {config : Config} {d : SoftwareDevice} {key : Bytes} {events : List Event}

theorem registrationId {readable : Json.Members → Prop}
    (h : Granting readable config d key events) : d.registrationId ≠ "" := by
  obtain ⟨scope, hscope⟩ := h.resource
  exact (Token.eq_of_scope hscope).2

theorem nonceKey_eq (h : Granting NonceReply.Typed config d key events) {request : Call}
    {deadline : Duration} {reply : Reply} (hsend : ⟨.send request deadline, reply⟩ ∈ events)
    (hoperation : request.operation = .requestNonce) :
    answered config.operationTimeout request nonceKey reply = .ok key := by
  obtain ⟨body, members, rfl, hbody, hcarries, htyped⟩ :=
    h.nonce request deadline reply hsend hoperation
  rw [answered_eq_ok_iff]
  refine ⟨body, ?_, nonceKey_of_carries hbody htyped hcarries h.keyed⟩
  match body, hbody.ne_nil with
  | b :: bs, _ => rfl

theorem expiry_eq {readable : Json.Members → Prop} (h : Granting readable config d key events)
    {reading : Option Duration} (hreading : ⟨.epoch, reading⟩ ∈ events) :
    ∃ now, reading = some now ∧
      Token.expiry reading config.tokenTtl = .ok (now + config.tokenTtl).secs := by
  obtain ⟨now, rfl, hnow⟩ := h.epoch reading hreading
  have hlimit : config.tokenTtl.nanos ≤ 365 * 24 * 60 * 60 * 1000000000 :=
    h.valid.bounded .tokenTtl
  have hfits : (now + config.tokenTtl).secs < Nat.pow 2 64 := by
    change now.nanos / 1000000000 < 4611686018427387904 at hnow
    change (now.nanos + config.tokenTtl.nanos) / 1000000000 < 18446744073709551616
    omega
  exact ⟨now, rfl, if_pos hfits⟩

/-- The device shows its whole identity. -/
theorem not_unidentified {readable : Json.Members → Prop}
    (h : Granting readable config d key events) {error : Error} :
    ¬ Unidentified config events error := by
  have hdevice := h.device
  intro hcourse
  cases hcourse with
  | @nameless answer _ hfault =>
    have hanswer : answer = .ok d.registrationId := hdevice.1
    rw [hanswer, fault_registrationId h.registrationId] at hfault
    exact nomatch hfault
  | @unendorsed _ _ answer _ hfault =>
    have hanswer : answer = .ok d.endorsementKey := hdevice.2.1
    rw [hanswer, fault_endorsementKey h.endorsementKey] at hfault
    exact nomatch hfault
  | @rootless _ _ _ _ answer _ hfault =>
    have hanswer : answer = .ok d.storageRootKey := hdevice.2.2.1
    rw [hanswer, fault_storageRootKey h.storageRootKey] at hfault
    exact nomatch hfault

/-- The device that has imported the key makes a token with it. -/
theorem not_untokened {readable : Json.Members → Prop}
    (h : Granting readable config d key events) {rest : List Event} (hrest : rest ⊆ events)
    (hdevice : ({ d with importedKey := some key } : SoftwareDevice).Answers rest) {error : Error} :
    ¬ Untokened config d.registrationId rest error := by
  intro hcourse
  cases hcourse with
  | unscoped hscope =>
    obtain ⟨scope, hok⟩ := h.resource
    exact nomatch hok.symm.trans hscope
  | undated hscope hfault =>
    obtain ⟨now, -, hexpiry⟩ := h.expiry_eq (hrest List.mem_cons_self)
    simp [fault, hexpiry] at hfault
  | @unsigned scope _ _ expiry _ answer _ hfault =>
    have hanswer : answer = .ok (Hmac.sign key (Token.signingInput scope expiry)) :=
      hdevice.1.trans (SoftwareDevice.signature_of_ne_nil h.keyed _)
    rw [hanswer, fault_sign (SoftwareDevice.sign_ne_nil _ _)] at hfault
    contradiction

/-- What was granted was granted to the device, and it is the key. -/
theorem grant_eq {g : Grant config} {rest : List Event}
    (h : Granting NonceReply.Typed config d key (g.events ++ rest)) :
    g.identity = d.identity ∧ g.credential = .serverAuthOnly ∧ g.key = key ∧ d.Answers rest := by
  obtain ⟨hgrant, hrest⟩ := SoftwareDevice.answers_append_iff.mp h.device
  obtain ⟨hidentity, hshown⟩ := SoftwareDevice.answers_append_iff.mp hgrant
  have hcredential :
      (Except.ok (some g.credential) : Except Error _) = .ok (some .serverAuthOnly) :=
    hshown.1
  have hsend : ⟨.send g.request g.deadline, g.reply⟩ ∈ g.events ++ rest := by
    simp [Grant.events]
  have hkey : (.ok g.key : Except Error Bytes) = .ok key :=
    g.brings.symm.trans (h.nonceKey_eq hsend rfl)
  exact ⟨SoftwareDevice.answers_identity_iff.mp hidentity,
    Option.some.inj (Except.ok.inj hcredential), Except.ok.inj hkey, hrest⟩

/-- Only the reply to the register call can end such a handshake. -/
theorem called (h : Granting NonceReply.Typed config d key events)
    {result : Except Error Outcome} {left : Authorization}
    (hcourse : KeyCourse config events result left) :
    ∃ (g : Grant config) (t : TokenMade config g.identity.registrationId) (now deadline : Duration)
      (reply : Reply),
      events = g.events ++ ⟨.device (.importKey g.key), .ok ()⟩ :: (t.events ++
        [⟨.clock, now⟩, ⟨.send (g.registerCall t.token) deadline, reply⟩]) := by
  have htime : InTime config events := inTime_of_clockFits h.valid h.clock
  cases hcourse with
  | unidentified hcourse => exact absurd hcourse h.not_unidentified
  | @bare i hi answer _ hfault =>
    obtain ⟨-, hcredential, -⟩ := SoftwareDevice.answers_append_iff.mp h.device
    have hanswer : answer = .ok (some .serverAuthOnly) := hcredential
    rw [hanswer] at hfault
    exact nomatch hfault
  | @untimed i hi c now hnone => exact absurd hnone (htime now (by simp))
  | @ungranted i hi c now deadline hd reply error hfault =>
    have hsend : ⟨.send (.requestNonce i.registrationId i.body c) deadline, reply⟩ ∈
        i.events ++ [⟨.device .credential, .ok (some c)⟩, ⟨.clock, now⟩,
          ⟨.send (.requestNonce i.registrationId i.body c) deadline, reply⟩] := by simp
    have hnone : fault config ⟨.send (.requestNonce i.registrationId i.body c) deadline, reply⟩ =
        none := failure?_eq_none_iff.mpr ⟨key, h.nonceKey_eq hsend rfl⟩
    exact nomatch hnone.symm.trans hfault
  | @unimported g error =>
    obtain ⟨-, -, rfl, himport, -⟩ := h.grant_eq
    rw [SoftwareDevice.answer, d.importKey_of_ne_nil h.keyed] at himport
    exact nomatch himport
  | @imported g rest _ _ hafter =>
    obtain ⟨hidentity, -, hkey, -, hrest⟩ := h.grant_eq
    rw [SoftwareDevice.answer, hkey, d.importKey_of_ne_nil h.keyed] at hrest
    have hsub : rest ⊆ g.events ++ ⟨.device (.importKey g.key), .ok ()⟩ :: rest := by
      intro e he
      simp [he]
    cases hafter with
    | untokened hcourse =>
      rw [hidentity] at hcourse
      exact absurd hcourse (h.not_untokened hsub hrest)
    | @untimed t now hnone => exact absurd hnone (htime now (by simp))
    | @called t now deadline hd reply => exact ⟨g, t, now, deadline, reply, rfl⟩

theorem tokenAgreed (h : Granting NonceReply.Typed config d key events)
    {result : Except Error Outcome} {left : Authorization}
    (hcourse : KeyCourse config events result left) : TokenAgreed config d key events := by
  obtain ⟨g, t, now, deadline, reply, rfl⟩ := h.called hcourse
  obtain ⟨hidentity, hcredential, hkey, -, hrest⟩ := h.grant_eq
  rw [SoftwareDevice.answer, hkey, d.importKey_of_ne_nil h.keyed] at hrest
  have hsigned : t.signature = Hmac.sign key (Token.signingInput t.scope t.expiry) :=
    Except.ok.inj (hrest.1.trans (SoftwareDevice.signature_of_ne_nil h.keyed _))
  have hid : g.identity.registrationId = d.registrationId := by rw [hidentity]; rfl
  obtain ⟨hscope, -⟩ := Token.eq_of_scope t.inScope
  have hepoch : ⟨.epoch, t.now⟩ ∈ g.events ++ ⟨.device (.importKey g.key), .ok ()⟩ ::
      (t.events ++ [⟨.clock, now⟩, ⟨.send (g.registerCall t.token) deadline, reply⟩]) := by
    simp [TokenMade.events]
  obtain ⟨epoch, hnow, hexpiry⟩ := h.expiry_eq hepoch
  have hends : t.expiry = (epoch + config.tokenTtl).secs :=
    Except.ok.inj (t.dated.symm.trans hexpiry)
  refine ⟨t.token, ⟨t.scope, t.signature, decimal t.expiry⟩, epoch, ?_, hnow ▸ hepoch,
    Token.read?_of_ofSignature t.written, hsigned.symm, ?_, ?_⟩
  · simp [Grant.request, Grant.registerCall, hidentity, hcredential]
    rfl
  · exact hscope.trans (congrArg (config.idScope ++ "/registrations/" ++ ·) hid)
  · exact congrArg decimal hends

end Granting

/-- A service that hands out a nonce with this body and grants all else, at the
first moment of all clocks. -/
def granting (body : Bytes) : (q : Query) → q.Answer
  | .send (.requestNonce ..) _ => .accepted (.delivered (.ok (some body)))
  | query => granted query

/-- A device in such surroundings, with whatever body carries the key. -/
theorem granting_follow {readable : Json.Members → Prop} {config : Config} {d : SoftwareDevice}
    {key body : Bytes} {resource : String} {members : Json.Members} (hvalid : config.Valid)
    (hscope : Token.scope config.idScope d.registrationId = .ok resource)
    (hek : d.endorsementKey ≠ []) (hsrk : d.storageRootKey ≠ []) (hkey : key ≠ [])
    (hbody : Json.HasMembers body members)
    (hcarries : NonceReply.Carries (Base64.encode key) members) (hread : readable members)
    {α : Type} (p : Program α) :
    Granting readable config d key (d.follow (granting body) p).1 where
  valid := hvalid
  resource := ⟨resource, hscope⟩
  endorsementKey := hek
  storageRootKey := hsrk
  keyed := hkey
  device := SoftwareDevice.answers_follow _ d p
  clock := by
    intro now hnow
    obtain rfl : now = .zero := SoftwareDevice.answer_of_mem_follow hnow (fun _ ↦ nofun)
    decide
  epoch := by
    intro reading hreading
    obtain rfl : reading = some .zero :=
      SoftwareDevice.answer_of_mem_follow hreading (fun _ ↦ nofun)
    exact ⟨.zero, rfl, by decide⟩
  nonce := by
    intro request deadline reply hsend hoperation
    have hreply : reply = granting body (.send request deadline) :=
      SoftwareDevice.answer_of_mem_follow hsend (fun _ ↦ nofun)
    cases request with
    | requestNonce id body' credential => exact ⟨body, members, hreply, hbody, hcarries, hread⟩
    | _ => exact nomatch hoperation

/-- With a reply that can be read, the register call goes out with a token that
the service accepts. -/
theorem registration_token_agreed {config : Config} {d : SoftwareDevice} {key : Bytes}
    {events : List Event} {result : Except Error Outcome} {left : Authorization}
    (h : Granting NonceReply.Typed config d key events)
    (hrun : (register config .symmetricKey).Yields .empty events result left) :
    TokenAgreed config d key events := by
  rw [register_symmetricKey h.valid] at hrun
  exact h.tokenAgreed (registerByKey_course hrun)

/-- A device that has imported another key before. -/
def staleDevice : SoftwareDevice := ⟨"device", [1], [2], some [9]⟩

def nestedMembers : Json.Members :=
  [("authenticationKey", .null), ("tpm", .object [(Json.plain "authenticationKey",
    .string (Json.plain "AQID"))])]

def nestedBody : Bytes :=
  Bytes.ofText "\x7b\"authenticationKey\":null,\"tpm\":\x7b\"authenticationKey\":\"AQID\"\x7d\x7d"

theorem hasMembers_nestedBody : Json.HasMembers nestedBody nestedMembers := by
  decide +kernel

theorem typed_nestedMembers : NonceReply.Typed nestedMembers where
  once := by decide
  texts := by
    have hnull : Json.Tree.null.IsOptionalText := .null
    simpa [nestedMembers, Json.Members.named] using hnull
  code := by simp [nestedMembers, Json.Members.named]
  inner := by
    have hkeys : NonceReply.innerKeys (.object [(Json.plain "authenticationKey",
        .string (Json.plain "AQID"))]) = [.string (Json.plain "AQID")] := by
      simp [NonceReply.innerKeys, Json.Tree.record?, Json.keyed?, Json.Members.named]
    have hinner : NonceReply.InnerTyped (.object [(Json.plain "authenticationKey",
        .string (Json.plain "AQID"))]) := by
      refine ⟨by simp [Json.Tree.record?, Json.keyed?], by simp [hkeys], ?_⟩
      rw [hkeys]
      simpa using .text (Json.text?_plain "AQID")
    simpa [nestedMembers, Json.Members.named] using hinner

/-- The key stands in the inner record, and the device forgets the key it had. -/
theorem registration_token_agreed_nested :
    ∃ (config : Config) (events : List Event) (result : Except Error Outcome)
      (left : Authorization), Granting NonceReply.Typed config staleDevice [1, 2, 3] events ∧
      (register config .symmetricKey).Yields .empty events result left ∧
      TokenAgreed config staleDevice [1, 2, 3] events := by
  let config : Config := .ofScope "0ne00000001" .https
  let p := (register config .symmetricKey).run.run .empty
  have hvalid : config.Valid := Config.valid_ofScope (by decide +kernel) .https
  have hscope : Token.scope config.idScope staleDevice.registrationId =
      .ok ("0ne00000001" ++ "/registrations/" ++ "device") :=
    Token.scope_eq_ok (by decide +kernel) (by decide +kernel) (by decide +kernel)
      (by decide +kernel)
  have hcarries : NonceReply.Carries (Base64.encode [1, 2, 3]) nestedMembers := by
    refine ⟨Json.plain "AQID", ?_, ?_⟩
    · decide +kernel
    · rfl
  have hgranting := granting_follow hvalid hscope (by decide) (by decide) (by decide)
    hasMembers_nestedBody hcarries typed_nestedMembers p
  have hrun := SoftwareDevice.runs_follow (granting nestedBody) staleDevice p
  exact ⟨config, _, _, _, hgranting, hrun, registration_token_agreed hgranting hrun⟩

def mistypedMembers : Json.Members :=
  [("authenticationKey", .string (Json.plain "AQID")),
    ("message", .number ⟨false, [5], [], none⟩)]

def mistypedBody : Bytes :=
  Bytes.ofText "\x7b\"authenticationKey\":\"AQID\",\"message\":5\x7d"

theorem hasMembers_mistypedBody : Json.HasMembers mistypedBody mistypedMembers := by
  decide +kernel

/-- A reply that cannot be read hands out nothing, whatever key it carries. -/
theorem registration_token_not_agreed_mistyped :
    ∃ (config : Config) (events : List Event) (result : Except Error Outcome)
      (left : Authorization), Granting (fun _ ↦ True) config staleDevice [1, 2, 3] events ∧
      (register config .symmetricKey).Yields .empty events result left ∧
      ¬ TokenAgreed config staleDevice [1, 2, 3] events := by
  let config : Config := .ofScope "0ne00000001" .https
  let p := (register config .symmetricKey).run.run .empty
  have hvalid : config.Valid := Config.valid_ofScope (by decide +kernel) .https
  have hscope : Token.scope config.idScope staleDevice.registrationId =
      .ok ("0ne00000001" ++ "/registrations/" ++ "device") :=
    Token.scope_eq_ok (by decide +kernel) (by decide +kernel) (by decide +kernel)
      (by decide +kernel)
  have hcarries : NonceReply.Carries (Base64.encode [1, 2, 3]) mistypedMembers := by
    refine ⟨Json.plain "AQID", ?_, ?_⟩
    · decide +kernel
    · rfl
  have hgranting : Granting (fun _ ↦ True) config staleDevice [1, 2, 3] _ :=
    granting_follow hvalid hscope (by decide) (by decide) (by decide) hasMembers_mistypedBody
      hcarries trivial p
  have hrun := SoftwareDevice.runs_follow (granting mistypedBody) staleDevice p
  have hcalls : (calls (staleDevice.follow (granting mistypedBody) p).1).length = 1 := by
    decide +kernel
  refine ⟨config, _, _, _, hgranting, hrun, ?_⟩
  rintro ⟨token, content, now, hagreed, -⟩
  simp [hagreed] at hcalls

end Enrollment
