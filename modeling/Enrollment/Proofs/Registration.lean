import Enrollment.Proofs.CertificateHandshake
import Enrollment.Proofs.KeyCourse
namespace Enrollment

/-!
# Registrations

Every registration is refused for its configuration, or is one of the two
handshakes.  Either way nothing is entered, and the outcome is what the reply to
the one register call says.
-/

open Program Session

variable {config : Config} {mechanism : Mechanism} {events : List Event}
  {result : Except Error Outcome} {left : Authorization}

inductive Registration (config : Config) :
    Mechanism → List Event → Except Error Outcome → Authorization → Prop
  | refused {mechanism : Mechanism} {error : Error} (h : config.validate = .error error) :
      Registration config mechanism [] (.error error) .empty
  | byKey {events : List Event} {result : Except Error Outcome} {left : Authorization}
      (h : KeyCourse config events result left) :
      Registration config .symmetricKey events result left
  | byCertificate {events : List Event} {result : Except Error Outcome} {left : Authorization}
      (h : CertificateCourse config events result left) :
      Registration config .x509 events result left

theorem register_eq (config : Config) (mechanism : Mechanism) :
    register config mechanism = ofResult config.validate >>= fun _ ↦
      match mechanism with
      | .symmetricKey => registerByKey config
      | .x509 => registerByCertificate config := by
  cases mechanism <;> rfl

theorem register_x509 (hvalid : config.Valid) :
    register config .x509 = registerByCertificate config := by
  rw [register_eq, Config.validate_eq_ok_iff.mpr hvalid]
  rfl

theorem register_course (h : (register config mechanism).Yields .empty events result left) :
    Registration config mechanism events result left := by
  rw [register_eq] at h
  rcases yields_bind_iff.mp h with
    ⟨e, hvalidate, rfl⟩ | ⟨_, a, before, after, rfl, hvalidate, hrest⟩
  · obtain ⟨rfl, herror, rfl⟩ := yields_ofResult_iff.mp hvalidate
    exact .refused herror.symm
  · obtain ⟨rfl, -, rfl⟩ := yields_ofResult_iff.mp hvalidate
    cases mechanism with
    | symmetricKey => exact .byKey (registerByKey_course hrest)
    | x509 => exact .byCertificate (registerByCertificate_course hrest)

def registerSteps : Mechanism → List Topic
  | .symmetricKey => keySteps
  | .x509 => certificateSteps

theorem Registration.concludes (h : Registration config mechanism events result left) :
    Concludes config (registerSteps mechanism) events result := by
  cases h with
  | refused h => exact .stopped List.nil_prefix
  | byKey h => exact h.concludes
  | byCertificate h => exact h.concludes

/-- Each of the two handshakes is done with its one register call, and neither asks
for a status or tells anybody of a new state. -/
theorem not_mem_registerSteps {topic : Topic}
    (h : topic ∈ [.call .authenticate, .call .getStatus, .enter]) (mechanism : Mechanism) :
    topic ∉ registerSteps mechanism := by
  simp only [List.mem_cons, List.not_mem_nil, or_false] at h
  rcases h with rfl | rfl | rfl <;>
    cases mechanism <;> simp [registerSteps, keySteps, certificateSteps]

theorem Registration.not_mem (h : Registration config mechanism events result left)
    {topic : Topic} (htopic : topic ∈ [.call .getStatus, .enter]) : topic ∉ topics events := by
  intro hmem
  rcases List.mem_append.mp (h.concludes.order.subset hmem) with hstep | hlast
  · exact not_mem_registerSteps (List.mem_cons_of_mem _ htopic) mechanism hstep
  · rw [List.mem_singleton] at hlast
    simp [hlast] at htopic

/-- The reply to a register call of these events says that this is the outcome. -/
def RegisterReply (config : Config) (events : List Event) (outcome : Outcome) : Prop :=
  ∃ request deadline reply, ⟨.send request deadline, reply⟩ ∈ events ∧
    request.operation = .authenticate ∧
    answered config.operationTimeout request Outcome.ofBytes reply = .ok outcome

theorem RegisterReply.topic_mem {outcome : Outcome} (h : RegisterReply config events outcome) :
    .call .authenticate ∈ topics events := by
  obtain ⟨request, deadline, reply, hmem, hoperation, -⟩ := h
  have htopic := Program.topic_mem hmem
  simpa only [Query.topic, hoperation] using htopic

theorem registerReply_append_iff {before after : List Event} {outcome : Outcome} :
    RegisterReply config (before ++ after) outcome ↔
      RegisterReply config before outcome ∨ RegisterReply config after outcome := by
  constructor
  · rintro ⟨request, deadline, reply, hmem, hoperation, hanswer⟩
    rcases List.mem_append.mp hmem with hbefore | hafter
    · exact Or.inl ⟨request, deadline, reply, hbefore, hoperation, hanswer⟩
    · exact Or.inr ⟨request, deadline, reply, hafter, hoperation, hanswer⟩
  · rintro (⟨request, deadline, reply, hmem, hrest⟩ | ⟨request, deadline, reply, hmem, hrest⟩)
    · exact ⟨request, deadline, reply, List.mem_append_left _ hmem, hrest⟩
    · exact ⟨request, deadline, reply, List.mem_append_right _ hmem, hrest⟩

theorem registerReply_asked_iff {outcome : Outcome} :
    RegisterReply config (asked events) outcome ↔ RegisterReply config events outcome := by
  constructor
  · rintro ⟨request, deadline, reply, hmem, hrest⟩
    exact ⟨request, deadline, reply, (List.mem_filter.mp hmem).1, hrest⟩
  · rintro ⟨request, deadline, reply, hmem, hrest⟩
    exact ⟨request, deadline, reply, List.mem_filter.mpr ⟨hmem, rfl⟩, hrest⟩

theorem registerReply_clock_iff {now : Duration} {outcome : Outcome} :
    RegisterReply config (⟨.clock, now⟩ :: events) outcome ↔
      RegisterReply config events outcome := by
  have hclock : ¬ RegisterReply config [⟨.clock, now⟩] outcome := by
    intro hreply
    simpa [topics, Query.topic] using hreply.topic_mem
  have hsplit : RegisterReply config ([⟨.clock, now⟩] ++ events) outcome ↔ _ :=
    registerReply_append_iff
  rw [List.singleton_append] at hsplit
  rw [hsplit, or_iff_right hclock]

theorem Registration.eq_ok_iff (h : Registration config mechanism events result left)
    {outcome : Outcome} : result = .ok outcome ↔ RegisterReply config events outcome := by
  cases h.concludes with
  | @stopped _ error hprefix =>
    constructor
    · intro hok
      exact nomatch hok
    · intro hreply
      have hstep := hprefix.subset hreply.topic_mem
      exact absurd hstep (not_mem_registerSteps List.mem_cons_self mechanism)
  | called before request deadline reply hevents hsteps hoperation =>
    constructor
    · intro hok
      exact ⟨request, deadline, reply, by simp [hevents], hoperation, hok⟩
    · intro hreply
      obtain ⟨other, d, r, hmem, hother, hanswer⟩ := hreply
      rw [hevents] at hmem
      rcases List.mem_append.mp hmem with hin | hlast
      · have hbefore : RegisterReply config before outcome := ⟨other, d, r, hin, hother, hanswer⟩
        have hstep := hbefore.topic_mem
        rw [hsteps] at hstep
        exact absurd hstep (not_mem_registerSteps List.mem_cons_self mechanism)
      · obtain ⟨⟨rfl, rfl⟩, rfl⟩ : (other = request ∧ d = deadline) ∧ r = reply := by
          simpa using hlast
        exact hanswer

end Enrollment
