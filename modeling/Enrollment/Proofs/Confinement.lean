import Enrollment.Proofs.Surroundings
namespace Enrollment

/-!
# What secrets do not show in

Whichever key the service hands out, an attempt asks the same questions, sends
the same calls, enters the same states and comes to the same result; only the
signature in its bearer token differs.  Nor does it show which certificates and
which private key a device holds, except in the credential that is handed on.
-/

open Program

/-! ### The key that the service hands out -/

/-- The service delivers a key, which is not empty, as its text in base64. -/
def DeliversKey (reply : Reply) : Prop :=
  ∃ body key, reply = .accepted (.delivered (.ok (some body))) ∧ key ≠ [] ∧
    authenticationKey body = .ok (Base64.encode key)

theorem DeliversKey.brings {reply : Reply} (h : DeliversKey reply) (timeout : Duration) :
    ∃ key, key ≠ [] ∧ (reply.body .requestNonce timeout).bind nonceKey = .ok key := by
  obtain ⟨body, key, rfl, hkey, hbody⟩ := h
  cases body with
  | nil => exact nomatch hbody
  | cons b bs =>
    have hdecoded : nonceKey (b :: bs) = .ok key := by
      simp only [nonceKey, hbody, Base64.decode_ofText_encode]
    exact ⟨key, hkey, hdecoded⟩

/-- Replies that are the same, or deliver a key each. -/
def KeysApart (reply reply' : Reply) : Prop :=
  reply = reply' ∨ DeliversKey reply ∧ DeliversKey reply'

/-- Replies that are the same hand out the same key or fail alike, and the others
a key each. -/
theorem KeysApart.delivered {reply reply' : Reply} (h : KeysApart reply reply')
    (timeout : Duration) : ResultLike (fun key key' ↦ key'.isEmpty = key.isEmpty)
      ((reply.body .requestNonce timeout).bind nonceKey)
      ((reply'.body .requestNonce timeout).bind nonceKey) := by
  rcases h with rfl | ⟨h, h'⟩
  · cases (reply.body .requestNonce timeout).bind nonceKey with
    | error error => exact .error error
    | ok key => exact .ok rfl
  · obtain ⟨key, hkey, hbrings⟩ := h.brings timeout
    obtain ⟨key', hkey', hbrings'⟩ := h'.brings timeout
    rw [hbrings, hbrings']
    have hempty : key'.isEmpty = key.isEmpty := by
      rw [List.isEmpty_eq_false_iff.mpr hkey, List.isEmpty_eq_false_iff.mpr hkey']
    exact .ok hempty

/-- Two runs with different keys: their tokens are for the same scope and expiry,
and differ in the signature alone. -/
def Likeness.keyed : Likeness where
  key key key' := key'.isEmpty = key.isEmpty
  signature s s' := s'.isEmpty = s.isEmpty
  token token token' := ∃ scope expiry s s', Token.ofSignature scope expiry s = .ok token ∧
    Token.ofSignature scope expiry s' = .ok token'
  credential := (· = ·)
  nonce := KeysApart
  delivered := KeysApart.delivered
  written := by
    intro scope expiry s s' h
    unfold Token.ofSignature
    rw [h]
    split
    · exact .error _
    · rename_i hne
      refine .ok ⟨scope, expiry, s, s', ?_, ?_⟩
      · rw [if_neg hne]
      · rw [h, if_neg hne]

theorem signature_keyed {key key' : Bytes} (h : key'.isEmpty = key.isEmpty) (data : Bytes) :
    ResultLike Likeness.keyed.signature (signature key data) (signature key' data) := by
  unfold signature
  rw [h]
  split
  · exact .error _
  · have hempty : (Hmac.sign key' data).isEmpty = (Hmac.sign key data).isEmpty := by
      rw [List.isEmpty_eq_false_iff.mpr (SoftwareDevice.sign_ne_nil key data),
        List.isEmpty_eq_false_iff.mpr (SoftwareDevice.sign_ne_nil key' data)]
    exact .ok hempty

theorem fitsSoftware_keyed : Likeness.keyed.FitsSoftware where
  empty := id
  signed := signature_keyed
  credential := rfl

/-! ### Certificates and private keys -/

/-- Two runs with different credentials, of which a log shows the same. -/
def Likeness.certified : Likeness where
  key := (· = ·)
  signature := (· = ·)
  token := (· = ·)
  credential c c' := c'.summary = c.summary
  nonce := (· = ·)
  delivered := delivered_same
  written := written_same

theorem Credential.summary_eq {c c' : Credential} (hcount : c'.chain.length = c.chain.length)
    (hidentity : c'.hasClientIdentity = c.hasClientIdentity) : c'.summary = c.summary := by
  unfold summary
  rw [hcount, hidentity]

theorem Credential.certified_withClientIdentity {chain chain' : List Bytes} (key key' : Bytes)
    (h : chain'.length = chain.length) : Likeness.certified.credential
      (withClientIdentity chain key) (withClientIdentity chain' key') := by
  apply Credential.summary_eq
  · exact h
  · have hempty : chain'.isEmpty = chain.isEmpty := by
      rw [Bool.eq_iff_iff, List.isEmpty_iff_length_eq_zero, List.isEmpty_iff_length_eq_zero, h]
    exact congrArg (fun empty ↦ !empty) hempty

/-! ### Attempts -/

/-- What one cannot tell from the runs of an attempt. -/
structure Confined (c : Client) : Prop where
  /-- Which key was handed out to a device with its keys in software. -/
  byKey : ∀ {d : SoftwareDevice} {n m : Nat} {events events' : List Event}
    {left left' : Client.Progress × Client}, Runs (c.attempt n) events left →
    Runs (c.attempt m) events' left' → Abreast n m left left' →
    d.Answers events → d.Answers events' → SurroundedAlike KeysApart events events' →
    SameBut .keyed events events' left left'
  /-- Which certificates, of so many, and which private key a device holds. -/
  byCertificate : ∀ {id : String} {chain chain' : List Bytes} {key key' : Bytes} {n m : Nat}
    {events events' : List Event} {left left' : Client.Progress × Client},
    chain'.length = chain.length → Runs (c.attempt n) events left →
    Runs (c.attempt m) events' left' → Abreast n m left left' →
    (⟨id, .withClientIdentity chain key⟩ : CertificateDevice).Answers events →
    (⟨id, .withClientIdentity chain' key'⟩ : CertificateDevice).Answers events' →
    SurroundedAlike (· = ·) events events' → SameBut .certified events events' left left'

/-- No secret shows but where it is meant to be. -/
theorem attempt_confines_secrets (c : Client) : Confined c where
  byKey := by
    intro d n m events events' left left' hrun hrun' habreast hanswers hanswers' hsame
    have hlike : d.Like .keyed d := .refl (fun _ ↦ rfl) d
    have hdevice := hlike.tracks fitsSoftware_keyed hanswers hanswers'
    exact Likeness.sameBut_of_tracks hrun hrun' habreast hsame hdevice
  byCertificate := by
    intro id chain chain' key key' n m events events' left left' hlength hrun hrun' habreast
      hanswers hanswers' hsame
    have hcredential := Credential.certified_withClientIdentity key key' hlength
    have hdevice := CertificateDevice.tracks (by rfl) hcredential hanswers hanswers'
    exact Likeness.sameBut_of_tracks hrun hrun' habreast hsame hdevice

/-- A reply that hands out a key, given by its text. -/
def keyBody (text : String) : Bytes :=
  Bytes.ofText ("\x7b\"authenticationKey\":\"" ++ text ++ "\"\x7d")

theorem authenticationKey_keyBody :
    authenticationKey (keyBody "AQID") = .ok (Base64.encode [1, 2, 3]) ∧
      authenticationKey (keyBody "BAUG") = .ok (Base64.encode [4, 5, 6]) := by
  decide +kernel

theorem granting_other {body body' : Bytes} {call call' : Call} (deadline deadline' : Duration)
    (hother : call.operation ≠ .requestNonce) (hcall : call'.operation = call.operation) :
    granting body (.send call deadline) = granting body' (.send call' deadline') := by
  cases call with
  | requestNonce => exact absurd rfl hother
  | authenticate =>
    cases call' with
    | authenticate => rfl
    | _ => exact nomatch hcall
  | getStatus =>
    cases call' with
    | getStatus => rfl
    | _ => exact nomatch hcall

theorem keysApart_follow {body body' key key' : Bytes}
    (h : authenticationKey body = .ok (Base64.encode key)) (hkey : key ≠ [])
    (h' : authenticationKey body' = .ok (Base64.encode key')) (hkey' : key' ≠ [])
    (d : SoftwareDevice) {α : Type} (p : Program α) : SurroundedAlike KeysApart
      (d.follow (granting body) p).1 (d.follow (granting body') p).1 := by
  apply SoftwareDevice.surroundedAlike_follow
  · rfl
  · rfl
  · intro call call' deadline deadline' hcall hcall'
    cases call with
    | requestNonce =>
      cases call' with
      | requestNonce => exact Or.inr ⟨⟨body, key, rfl, hkey, h⟩, body', key', rfl, hkey', h'⟩
      | _ => exact nomatch hcall'
    | _ => exact nomatch hcall
  · exact fun _ _ ↦ granting_other

/-- Two keys are handed out: two tokens are sent, and nothing else differs. -/
theorem attempt_confines_secrets_keys :
    ∃ (c : Client) (d : SoftwareDevice) (events events' : List Event)
      (left left' : Client.Progress × Client), Runs (c.attempt 1) events left ∧
      Runs (c.attempt 1) events' left' ∧ d.Answers events ∧ d.Answers events' ∧
      SurroundedAlike KeysApart events events' ∧ calls events ≠ calls events' ∧
      SameBut .keyed events events' left left' := by
  let c : Client := ⟨.ofScope "0ne00000001" .https, .symmetricKey, .notStarted⟩
  let d := SoftwareDevice.new "device" [1] [2]
  have hrun := d.runs_follow (granting (keyBody "AQID")) (c.attempt 1)
  have hrun' := d.runs_follow (granting (keyBody "BAUG")) (c.attempt 1)
  have hanswers := d.answers_follow (granting (keyBody "AQID")) (c.attempt 1)
  have hanswers' := d.answers_follow (granting (keyBody "BAUG")) (c.attempt 1)
  obtain ⟨hkey, hkey'⟩ := authenticationKey_keyBody
  have hsame := keysApart_follow hkey (by decide) hkey' (by decide) d (c.attempt 1)
  have hcalls : calls (d.follow (granting (keyBody "AQID")) (c.attempt 1)).1 ≠
      calls (d.follow (granting (keyBody "BAUG")) (c.attempt 1)).1 := by
    decide +kernel
  exact ⟨c, d, _, _, _, _, hrun, hrun', hanswers, hanswers', hsame, hcalls,
    (attempt_confines_secrets c).byKey hrun hrun' (Or.inl rfl) hanswers hanswers' hsame⟩

end Enrollment
