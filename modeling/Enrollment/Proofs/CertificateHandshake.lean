import Enrollment.Proofs.KeyHandshake
namespace Enrollment

/-!
# The handshake by certificate, step by step

One question after the id, one after the credential, one call: `CertificateCourse`
lists what can become of them.
-/

open Program Session

variable {config : Config} {events : List Event} {result : Except Error Outcome}
  {left : Authorization}

def certificateBody (registrationId : String) : Bytes :=
  RequestBody.bytes (RequestBody.certificate registrationId)

inductive CertificateCourse (config : Config) :
    List Event → Except Error Outcome → Authorization → Prop
  | nameless {answer : Except Error String} {error : Error}
      (h : checked String.isEmpty (.client .emptyRegistrationId) answer = .error error) :
      CertificateCourse config [⟨.device .registrationId, answer⟩] (.error error) .empty
  | bare {id : String} (hid : id ≠ "") {answer : Except Error (Option Credential)} {error : Error}
      (h : held .x509 answer = .error error) :
      CertificateCourse config
        [⟨.device .registrationId, .ok id⟩, ⟨.device .credential, answer⟩] (.error error) .empty
  | untimed {id : String} (hid : id ≠ "") {c : Credential} {now : Duration}
      (h : deadline? now config.operationTimeout = none) :
      CertificateCourse config
        [⟨.device .registrationId, .ok id⟩, ⟨.device .credential, .ok (some c)⟩, ⟨.clock, now⟩]
        (.error (.client (.longTimeout .authenticate config.operationTimeout))) ⟨some c, none⟩
  | called {id : String} (hid : id ≠ "") {c : Credential} {now deadline : Duration}
      (hd : deadline? now config.operationTimeout = some deadline) {reply : Reply} :
      CertificateCourse config
        [⟨.device .registrationId, .ok id⟩, ⟨.device .credential, .ok (some c)⟩, ⟨.clock, now⟩,
          ⟨.send (.authenticate id (certificateBody id) c none) deadline, reply⟩]
        (answered config.operationTimeout (.authenticate id (certificateBody id) c none)
          Outcome.ofBytes reply)
        ⟨some c, none⟩

theorem registerByCertificate_course
    (h : (registerByCertificate config).Yields .empty events result left) :
    CertificateCourse config events result left := by
  rcases yields_required_bind_iff.mp h with
    ⟨answer, e, hask, hfault, rfl⟩ | ⟨id, a₁, before₁, rest₁, rfl, hask, hid, hrest⟩
  · obtain ⟨rfl, rfl⟩ := yields_registrationId_iff.mp hask
    exact .nameless hfault
  obtain ⟨rfl, rfl⟩ := yields_registrationId_iff.mp hask
  have hname : id ≠ "" := by simpa using hid
  rcases yields_bind_iff.mp hrest with
    ⟨e, hcred, rfl⟩ | ⟨c, a₂, before₂, rest₂, rfl, hcred, hcall⟩
  · obtain ⟨rfl, answer, rfl, hheld⟩ := yields_credential_error hcred
    exact .bare hname hheld
  obtain ⟨rfl, rfl⟩ := yields_credential_ok hcred
  obtain ⟨rfl, now, ⟨hd, rfl, rfl⟩ | ⟨deadline, reply, hd, rfl, rfl⟩⟩ := yields_call_iff.mp hcall
  · exact .untimed hname hd
  · exact .called hname hd

theorem registerByCertificate_called {id : String} (hid : id ≠ "") (c : Credential)
    {now deadline : Duration} (hd : deadline? now config.operationTimeout = some deadline)
    (reply : Reply) :
    (registerByCertificate config).Yields .empty
      [⟨.device .registrationId, .ok id⟩, ⟨.device .credential, .ok (some c)⟩, ⟨.clock, now⟩,
        ⟨.send (.authenticate id (certificateBody id) c none) deadline, reply⟩]
      (answered config.operationTimeout (.authenticate id (certificateBody id) c none)
        Outcome.ofBytes reply)
      ⟨some c, none⟩ := by
  have hname : id.isEmpty = false := by simpa using hid
  have hcall : (call config.operationTimeout (.authenticate id (certificateBody id) c none)
      Outcome.ofBytes).Yields ⟨some c, none⟩ [⟨.clock, now⟩,
        ⟨.send (.authenticate id (certificateBody id) c none) deadline, reply⟩] _ ⟨some c, none⟩ :=
    yields_call_iff.mpr ⟨rfl, now, Or.inr ⟨deadline, reply, hd, rfl, rfl⟩⟩
  exact (yields_required_of (yields_registrationId_iff.mpr ⟨rfl, rfl⟩) hname).andThen
    ((yields_credential_some _ c .empty).andThen hcall)
def certificateSteps : List Topic := [.registrationId, .credential, .clock]

theorem CertificateCourse.concludes (h : CertificateCourse config events result left) :
    Concludes config certificateSteps events result := by
  cases h with
  | @called id hid c now deadline hd reply =>
    apply Concludes.called [⟨.device .registrationId, .ok id⟩,
      ⟨.device .credential, .ok (some c)⟩, ⟨.clock, now⟩]
      (.authenticate id (certificateBody id) c none) deadline reply
    · rfl
    · rfl
    · rfl
  | _ => exact .stopped ⟨_, rfl⟩

end Enrollment
