import Enrollment.Proofs.AttemptTokens
import Enrollment.Proofs.Notifications
import Enrollment.Proofs.Surroundings
namespace Enrollment

/-!
# Attempts do not depend on those before them

All that an attempt could find left over from earlier ones is the state of its
client and the key imported last.  It leaves the first state at once, and signs
only after it has imported a key of its own.
-/

open Program

/-! ### The key imported last -/

/-- A key is imported before anything is signed. -/
def ImportsFirst : List Event → Prop
  | [] => True
  | ⟨.device (.importKey _), .ok _⟩ :: _ => True
  | ⟨.device (.sign _), _⟩ :: _ => False
  | _ :: events => ImportsFirst events

theorem ImportsFirst.append {events rest : List Event} (h : ImportsFirst events)
    (hrest : ImportsFirst rest) : ImportsFirst (events ++ rest) := by
  induction events with
  | nil => exact hrest
  | cons e events ih =>
    obtain ⟨query, answer⟩ := e
    cases query with
    | device query =>
      cases query with
      | importKey key =>
        cases answer with
        | ok => trivial
        | error => exact ih h
      | sign data => exact h.elim
      | _ => exact ih h
    | _ => exact ih h

theorem importsFirst_of_not_mem {events : List Event} (h : .sign ∉ topics events) :
    ImportsFirst events := by
  induction events with
  | nil => trivial
  | cons e events ih =>
    have hrest : ImportsFirst events := ih fun hmem ↦ h (List.mem_cons_of_mem _ hmem)
    obtain ⟨query, answer⟩ := e
    cases query with
    | device query =>
      cases query with
      | importKey key =>
        cases answer with
        | ok => trivial
        | error => exact hrest
      | sign data => exact absurd List.mem_cons_self h
      | _ => exact hrest
    | _ => exact hrest

namespace SoftwareDevice

variable {d : SoftwareDevice} {events : List Event}

/-- The device as it was built, before any key was imported. -/
def fresh (d : SoftwareDevice) : SoftwareDevice :=
  new d.registrationId d.endorsementKey d.storageRootKey

theorem identity_after (d : SoftwareDevice) (events : List Event) :
    (d.after events).identity = d.identity := by
  induction events generalizing d with
  | nil => rfl
  | cons e events ih =>
    obtain ⟨query, answer⟩ := e
    cases query with
    | device query => exact (ih _).trans (identity_answer d query)
    | _ => exact ih d

/-- A key that is left over is not used by those who import one first. -/
theorem answers_leftover_iff {id : String} {ek srk : Bytes} (key key' : Option Bytes)
    (h : ImportsFirst events) :
    (⟨id, ek, srk, key⟩ : SoftwareDevice).Answers events ↔
      (⟨id, ek, srk, key'⟩ : SoftwareDevice).Answers events := by
  induction events with
  | nil => exact Iff.rfl
  | cons e events ih =>
    obtain ⟨query, answer⟩ := e
    cases query with
    | device query =>
      rw [answers_device_cons_iff, answers_device_cons_iff]
      cases query with
      | importKey new =>
        simp only [SoftwareDevice.answer, SoftwareDevice.importKey]
        cases hempty : new.isEmpty with
        | true =>
          cases answer with
          | ok => simp
          | error => simp [ih h]
        | false => simp
      | sign data => exact h.elim
      | _ => exact and_congr Iff.rfl (ih h)
    | _ => exact ih h

theorem answers_fresh_iff {d' : SoftwareDevice} (hidentity : d'.identity = d.identity)
    (h : ImportsFirst events) : d'.Answers events ↔ d.fresh.Answers events := by
  obtain ⟨id, ek, srk, key⟩ := d
  obtain ⟨id', ek', srk', key'⟩ := d'
  obtain ⟨rfl, rfl, rfl⟩ := KeyIdentity.mk.inj hidentity
  exact answers_leftover_iff key' none h

/-- A device signs with the key that was just imported. -/
theorem signs_with_imported {config : Config} {key : Bytes} {scope : String} {expiry : Nat}
    {answer : Except Error Bytes} (h : d.Answers events)
    (hsigned : SignedFor config events key scope expiry answer) :
    answer = .ok (Hmac.sign key (Token.signingInput scope expiry)) := by
  obtain ⟨first, g, now, after, rfl, -, rfl⟩ := hsigned
  obtain ⟨-, himport, hrest⟩ := answers_append_iff.mp h
  have hne : g.key ≠ [] := by
    intro hnil
    rw [hnil] at himport
    exact nomatch himport
  rw [SoftwareDevice.answer, importKey_of_ne_nil _ hne] at hrest
  obtain ⟨hanswer, -⟩ := hrest
  exact hanswer.trans (signature_of_ne_nil hne _)

end SoftwareDevice

/-! ### Registrations and attempts import first -/

variable {config : Config} {mechanism : Mechanism} {events : List Event}
  {result : Except Error Outcome} {left : Authorization}

theorem KeyCourse.importsFirst (h : KeyCourse config events result left) :
    ImportsFirst events := by
  cases h with
  | unidentified h => cases h <;> trivial
  | imported g h =>
    have hgrant : ImportsFirst g.events := trivial
    exact hgrant.append trivial
  | _ => trivial

theorem Registration.importsFirst (h : Registration config mechanism events result left) :
    ImportsFirst events := by
  cases h with
  | refused h => trivial
  | byKey h => exact h.importsFirst
  | byCertificate h => cases h <;> trivial

namespace Client

variable {c c' : Client} {n : Nat} {progress : Progress}

theorem AttemptParts.importsFirst (h : AttemptParts c events) : ImportsFirst events := by
  obtain ⟨first, registered, last, hinside⟩ := h.inside
  obtain ⟨reply, authorization, hcourse⟩ := hinside.course
  have hsign : Topic.sign ∉ Topic.enter :: turnTopics := by decide
  have hfirst : ImportsFirst first :=
    importsFirst_of_not_mem fun hmem ↦ hsign (hinside.first hmem)
  have hlast : ImportsFirst last := importsFirst_of_not_mem fun hmem ↦ hsign (hinside.last hmem)
  rw [hinside.split]
  exact hfirst.append (hcourse.importsFirst.append hlast)

/-! ### The state of the client -/

theorem transition_registering (h : c.state ≠ .registering) : c.transition .registering =
    .ask (.enter .registering) fun _ ↦ .done ⟨c.config, c.mechanism, .registering⟩ := by
  unfold transition
  rw [if_neg h]
  rfl

/-- A client that is not in the middle of an attempt begins the next one in the same
way, whatever state the last one left it in. -/
theorem attempt_eq_of_ended (hconfig : c'.config = c.config)
    (hmechanism : c'.mechanism = c.mechanism) (hstate : c.state ≠ .registering)
    (hstate' : c'.state ≠ .registering) (n : Nat) :
    c'.attempt n = c.attempt n := by
  have htransition : c'.transition .registering = c.transition .registering := by
    rw [transition_registering hstate, transition_registering hstate', hconfig, hmechanism]
  have hbegin : c'.begin = c.begin := by
    rw [begin_eq, begin_eq, htransition]
  rw [attempt_eq, attempt_eq, hbegin]

theorem Registrations.kept {earlier : List (List Event × Except Error Outcome)}
    (h : Registrations c earlier c') (hstate : c.state ≠ .registering) :
    c'.config = c.config ∧ c'.mechanism = c.mechanism ∧ c'.state ≠ .registering := by
  induction h with
  | nil c => exact ⟨rfl, rfl, hstate⟩
  | cons hattempt _ ih =>
    obtain ⟨hconfig, hmechanism⟩ := attempt_config hattempt
    obtain ⟨-, hend, -⟩ := attempt_states hstate hattempt
    obtain ⟨hconfig', hmechanism', hlast⟩ := ih hend.ended.ne_registering
    exact ⟨hconfig'.trans hconfig, hmechanism'.trans hmechanism, hlast⟩

/-! ### What is used in an attempt is its own -/

/-- What the events of an attempt use of secrets, they have brought themselves. -/
structure OwnSecrets (config : Config) (events : List Event) : Prop where
  /-- It is signed with a key that was handed out and imported before. -/
  signed : ∀ data answer, ⟨.device (.sign data), answer⟩ ∈ events → ∃ key scope expiry,
    data = Token.signingInput scope expiry ∧ SignedFor config events key scope expiry answer
  /-- Such a key makes the signature, of a device that keeps it in software. -/
  keyed : ∀ (d : SoftwareDevice) key scope expiry answer, d.Answers events →
    SignedFor config events key scope expiry answer →
    answer = .ok (Hmac.sign key (Token.signingInput scope expiry))
  token : ∀ request ∈ calls events, ∀ token, request.bearerToken = some token →
    TokenFrom config events token
  /-- The credential was shown before the call that carries it. -/
  credential : EachSend (fun before request ↦
    ⟨.device .credential, .ok (some request.credential)⟩ ∈ before) events

theorem attempt_ownSecrets (h : Runs (c.attempt n) events (progress, c')) :
    OwnSecrets c.config events where
  signed _ _ hmem := (runs_attempt_iff.mp h).parts.signedFor hmem
  keyed _ _ _ _ _ hanswers hsigned := SoftwareDevice.signs_with_imported hanswers hsigned
  token _ hmem _ htoken := (runs_attempt_iff.mp h).parts.tokenFrom hmem htoken
  credential := (runs_attempt_iff.mp h).parts.sent.imp fun _ _ hsent ↦ hsent.credential

end Client

/-! ### Two runs that do not differ -/

namespace Likeness

def exact : Likeness where
  key := (· = ·)
  signature := (· = ·)
  token := (· = ·)
  credential := (· = ·)
  nonce := (· = ·)
  delivered := delivered_same
  written := written_same

theorem eq_of_rel {α : Type} {x y : Option α} (h : Option.Rel (· = ·) x y) : y = x := by
  cases h with
  | some h => rw [h]
  | none => rfl

theorem CallLike.eq {request request' : Call} (h : exact.CallLike request request') :
    request' = request := by
  cases h with
  | requestNonce id body hc =>
    obtain rfl : _ = _ := hc
    rfl
  | authenticate id body hc ht =>
    obtain rfl : _ = _ := hc
    rw [eq_of_rel ht]
  | getStatus operationId id hc ht =>
    obtain rfl : _ = _ := hc
    rw [eq_of_rel ht]

theorem EventLike.eq {e e' : Event} (h : exact.EventLike e e') : e' = e := by
  cases h with
  | plain => rfl
  | credential h =>
    cases h with
    | error error => rfl
    | ok hc => rw [eq_of_rel hc]
  | sign data h => rw [h.eq]
  | importKey h answer =>
    obtain rfl : _ = _ := h
    rfl
  | nonce h hoperation deadline hreply =>
    obtain rfl : _ = _ := hreply
    rw [h.eq]
  | send h hoperation deadline reply => rw [h.eq]

theorem LeftLike.eq {left left' : Client.Progress × Client} (h : exact.LeftLike left left') :
    left' = left := by
  obtain ⟨progress, c⟩ := left
  obtain ⟨progress', c'⟩ := left'
  obtain ⟨hprogress, rfl⟩ := h
  cases hprogress with
  | finished found => rfl
  | @polling started operationId a a' h =>
    obtain ⟨credential, token⟩ := a
    obtain ⟨credential', token'⟩ := a'
    obtain rfl : credential' = credential := eq_of_rel h.credential
    obtain rfl : token' = token := eq_of_rel h.bearerToken
    rfl

theorem fitsSoftware_exact : exact.FitsSoftware where
  empty h := by rw [show _ = _ from h]
  signed h data := by
    obtain rfl : _ = _ := h
    exact .refl _
  credential := rfl

end Likeness

theorem SameBut.eq {events events' : List Event} {left left' : Client.Progress × Client}
    (h : SameBut .exact events events' left left') : events' = events ∧ left' = left := by
  refine ⟨?_, h.left.eq⟩
  have hasked := h.asked.imp fun _ _ hevent ↦ hevent.eq.symm
  rw [List.forall₂_eq_eq_eq] at hasked
  exact hasked.symm

namespace Client

variable {c c' : Client}

/-! ### Attempts after others -/

/-- An attempt of a used client is one of a new client.  Each has its device, and
`used` and `fresh` say what these have answered. -/
structure Forgets (c c' : Client) (fresh used : List Event → Prop) : Prop where
  /-- What may happen to the one may happen to the other. -/
  same : ∀ n events left, Runs (c'.attempt n) events left ∧ used events ↔
    Runs (c.attempt n) events left ∧ fresh events
  /-- With the same clocks and replies, the same happens to both. -/
  determined : ∀ n m events events' left left', Runs (c.attempt n) events left → fresh events →
    Runs (c'.attempt m) events' left' → used events' → Abreast n m left left' →
    SurroundedAlike (· = ·) events events' → events' = events ∧ left' = left
  own : ∀ n events left, Runs (c'.attempt n) events left → OwnSecrets c.config events

theorem forgets {fresh used : List Event → Prop} (hattempt : ∀ n, c'.attempt n = c.attempt n)
    (hconfig : c'.config = c.config)
    (hdevice : ∀ events, ImportsFirst events → (used events ↔ fresh events))
    (htracks : ∀ events events', fresh events → fresh events' →
      Likeness.exact.Tracks (fun q ↦ q.isDevice) events events') : Forgets c c' fresh used where
  same := by
    intro n events left
    rw [hattempt]
    refine and_congr_right fun hrun ↦ hdevice events ?_
    exact (runs_attempt_iff.mp hrun).parts.importsFirst
  determined := by
    intro n m events events' left left' hrun hfresh hrun' hused habreast hsame
    rw [hattempt] at hrun'
    have hfresh' := (hdevice events' (runs_attempt_iff.mp hrun').parts.importsFirst).mp hused
    have hanswers := htracks events events' hfresh hfresh'
    apply SameBut.eq
    exact Likeness.sameBut_of_tracks hrun hrun' habreast hsame hanswers
  own := by
    intro n events left hrun
    rw [← hconfig]
    exact attempt_ownSecrets hrun

/-- Whatever registrations there were before, and whatever they have left in client
and device, the next one goes as the first of a new client with a new device. -/
theorem attempts_forget_history {spoken : Protocol}
    {earlier : List (List Event × Except Error Outcome)}
    (hnew : Client.new config mechanism spoken = .ok c) (h : Registrations c earlier c') :
    (∀ d : SoftwareDevice,
      Forgets c c' d.fresh.Answers (d.after (earlier.flatMap Prod.fst)).Answers) ∧
    ∀ d : CertificateDevice, Forgets c c' d.Answers d.Answers := by
  obtain ⟨-, -, rfl⟩ := new_eq_ok_iff.mp hnew
  obtain ⟨hconfig, hmechanism, hstate⟩ := h.kept nofun
  have hattempt := attempt_eq_of_ended hconfig hmechanism nofun hstate
  constructor
  · intro d
    apply forgets hattempt hconfig
    · intro events himports
      exact SoftwareDevice.answers_fresh_iff (d.identity_after _) himports
    · intro events events' hfresh hfresh'
      have hlike : d.fresh.Like .exact d.fresh := .refl (fun _ ↦ rfl) d.fresh
      exact hlike.tracks Likeness.fitsSoftware_exact hfresh hfresh'
  · intro d
    apply forgets hattempt hconfig
    · exact fun _ _ ↦ Iff.rfl
    · exact fun _ _ ↦ CertificateDevice.tracks rfl rfl

theorem exists_run_of_device (answer : (q : Query) → q.Answer) {d : SoftwareDevice}
    {p : Program (Progress × Client)} {key : Option Bytes}
    (hfinished : (d.follow answer p).2.1.isFinished = true) (hclient : (d.follow answer p).2.2 = c)
    (hkey : (d.after (d.follow answer p).1).importedKey = key) :
    ∃ events found, Runs p events (.finished found, c) ∧ (d.after events).importedKey = key := by
  have hrun := d.runs_follow answer p
  generalize d.follow answer p = run at hfinished hclient hkey hrun
  obtain ⟨events, progress, c'⟩ := run
  obtain rfl : c' = c := hclient
  cases progress with
  | finished found => exact ⟨events, found, hrun, hkey⟩
  | polling p => exact nomatch hfinished

/-- A registration leaves its key in the device, and the next one forgets it. -/
theorem attempts_forget_history_key :
    ∃ (config : Config) (c c' : Client) (earlier : List (List Event × Except Error Outcome))
      (d : SoftwareDevice), Client.new config .symmetricKey .https = .ok c ∧
      Registrations c earlier c' ∧
      (d.after (earlier.flatMap Prod.fst)).importedKey = some [1, 2, 3] ∧
      Forgets c c' d.fresh.Answers (d.after (earlier.flatMap Prod.fst)).Answers := by
  let config : Config := .ofScope "0ne00000001" .https
  let d := SoftwareDevice.new "device" [1] [2]
  have hvalid : config.Valid := Config.valid_ofScope (by decide +kernel) .https
  have hnew : Client.new config .symmetricKey .https = .ok ⟨config, .symmetricKey, .notStarted⟩ :=
    new_eq_ok_iff.mpr ⟨hvalid, rfl, rfl⟩
  obtain ⟨events, found, hrun, hkey⟩ :
      ∃ events found, Runs (attempt ⟨config, .symmetricKey, .notStarted⟩ 1) events
          (.finished found, ⟨config, .symmetricKey, .assigned⟩) ∧
        (d.after events).importedKey = some [1, 2, 3] := by
    apply exists_run_of_device granted <;> decide +kernel
  have hearlier := Registrations.cons hrun (.nil _)
  refine ⟨config, _, _, _, d, hnew, hearlier, ?_, (attempts_forget_history hnew hearlier).1 d⟩
  simpa using hkey

end Client
end Enrollment
