import Enrollment.Identity.Certificate
import Enrollment.Proofs.Coupling
import Enrollment.Proofs.SoftwareHandshake
namespace Enrollment

/-!
# Runs in the same surroundings

Two runs that read the same clocks and get the same replies, as far as both of
them go, and whose devices are alike, get like answers for as long as they ask
like questions.
-/

open Program

/-- As far as both lists go, their members correspond. -/
def Alongside {α : Type} (R : α → α → Prop) : List α → List α → Prop
  | x :: xs, y :: ys => R x y ∧ Alongside R xs ys
  | _, _ => True

theorem Alongside.of_forall {α : Type} {R : α → α → Prop} {xs ys : List α}
    (h : ∀ x ∈ xs, ∀ y ∈ ys, R x y) : Alongside R xs ys := by
  induction xs generalizing ys with
  | nil => trivial
  | cons x xs ih =>
    cases ys with
    | nil => trivial
    | cons y ys =>
      have hrest : Alongside R xs ys := by
        apply ih
        intro x hx y hy
        exact h x (List.mem_cons_of_mem _ hx) y (List.mem_cons_of_mem _ hy)
      exact ⟨h x List.mem_cons_self y List.mem_cons_self, hrest⟩

/-- Of two events either both or none are seen. -/
theorem Alongside.uncons {α : Type} {R : α → α → Prop} {view : Event → Option α} {e e' : Event}
    {events events' : List Event}
    (h : Alongside R ((e :: events).filterMap view) ((e' :: events').filterMap view))
    (hseen : (view e).isSome = (view e').isSome) :
    (∀ x y, view e = some x → view e' = some y → R x y) ∧
      Alongside R (events.filterMap view) (events'.filterMap view) := by
  cases hx : view e with
  | none =>
    have hy : view e' = none := by simpa [hx] using hseen
    rw [List.filterMap_cons_none hx, List.filterMap_cons_none hy] at h
    exact ⟨nofun, h⟩
  | some x =>
    obtain ⟨y, hy⟩ : ∃ y, view e' = some y := by simpa [hx, Option.isSome_iff_exists] using hseen
    rw [List.filterMap_cons_some hx, List.filterMap_cons_some hy] at h
    refine ⟨?_, h.2⟩
    intro x' y' hx' hy'
    obtain rfl := Option.some.inj hx'
    obtain rfl := Option.some.inj (hy.symm.trans hy')
    exact h.1

namespace Program.Event

/-- The answer, if this was the question. -/
def answer? (q : Query) (e : Event) : Option q.Answer :=
  if h : e.query = q then some (h ▸ e.answer) else none

def reply? (operation : Operation) : Event → Option Reply
  | ⟨.send call _, reply⟩ => if call.operation = operation then some reply else none
  | _ => none

theorem answer?_self (q : Query) (answer : q.Answer) : answer? q ⟨q, answer⟩ = some answer :=
  dif_pos rfl

theorem eq_of_answer? {q : Query} {e : Event} {answer : q.Answer} (h : e.answer? q = some answer) :
    e = ⟨q, answer⟩ := by
  obtain ⟨query, found⟩ := e
  unfold answer? at h
  split at h
  · next hq =>
    obtain rfl : query = q := hq
    obtain rfl := Option.some.inj h
    rfl
  · exact nomatch h

theorem isSome_answer?_iff {q : Query} {e : Event} : (e.answer? q).isSome ↔ e.query = q := by
  by_cases h : e.query = q <;> simp [answer?, h]

theorem eq_of_reply? {operation : Operation} {e : Event} {reply : Reply}
    (h : e.reply? operation = some reply) :
    ∃ call deadline, call.operation = operation ∧ e = ⟨.send call deadline, reply⟩ := by
  obtain ⟨q, answer⟩ := e
  cases q with
  | send call deadline =>
    simp only [reply?, Option.ite_none_right_eq_some, Option.some.injEq] at h
    obtain ⟨hoperation, rfl⟩ := h
    exact ⟨call, deadline, hoperation, rfl⟩
  | _ => exact nomatch h

end Program.Event

/-- The clocks and the replies of two runs agree as far as both runs go; the
replies to their nonce requests may be related otherwise. -/
structure SurroundedAlike (nonces : Reply → Reply → Prop) (events events' : List Event) :
    Prop where
  clock : Alongside (· = ·) (events.filterMap (Event.answer? .clock))
    (events'.filterMap (Event.answer? .clock))
  epoch : Alongside (· = ·) (events.filterMap (Event.answer? .epoch))
    (events'.filterMap (Event.answer? .epoch))
  nonces : Alongside nonces (events.filterMap (Event.reply? .requestNonce))
    (events'.filterMap (Event.reply? .requestNonce))
  replies : ∀ operation, operation ≠ .requestNonce →
    Alongside (· = ·) (events.filterMap (Event.reply? operation))
      (events'.filterMap (Event.reply? operation))

namespace SoftwareDevice

variable {α : Type} {answer : (q : Query) → q.Answer} {d : SoftwareDevice} {p : Program α}

theorem eq_of_mem_follow {q : Query} (hq : ∀ query, q ≠ .device query) {found : q.Answer}
    (h : found ∈ (d.follow answer p).1.filterMap (Event.answer? q)) : found = answer q := by
  obtain ⟨e, hmem, hseen⟩ := List.mem_filterMap.mp h
  obtain rfl := Event.eq_of_answer? hseen
  exact answer_of_mem_follow hmem hq

theorem reply_of_mem_follow {operation : Operation} {reply : Reply}
    (h : reply ∈ (d.follow answer p).1.filterMap (Event.reply? operation)) :
    ∃ call deadline, call.operation = operation ∧ reply = answer (.send call deadline) := by
  obtain ⟨e, hmem, hseen⟩ := List.mem_filterMap.mp h
  obtain ⟨call, deadline, hcall, rfl⟩ := Event.eq_of_reply? hseen
  exact ⟨call, deadline, hcall, answer_of_mem_follow hmem fun _ ↦ nofun⟩

/-- Where all is answered in the same way at all times, surroundings are the same
as soon as these answers are. -/
theorem surroundedAlike_follow {nonces : Reply → Reply → Prop} {d' : SoftwareDevice}
    {answer' : (q : Query) → q.Answer} {β : Type} (p : Program α) (p' : Program β)
    (hclock : answer .clock = answer' .clock) (hepoch : answer .epoch = answer' .epoch)
    (hnonces : ∀ call call' deadline deadline', call.operation = .requestNonce →
      call'.operation = .requestNonce →
        nonces (answer (.send call deadline)) (answer' (.send call' deadline')))
    (hreplies : ∀ call call' deadline deadline', call.operation ≠ .requestNonce →
      call'.operation = call.operation →
        answer (.send call deadline) = answer' (.send call' deadline')) :
    SurroundedAlike nonces (d.follow answer p).1 (d'.follow answer' p').1 where
  clock := by
    apply Alongside.of_forall
    intro now hnow now' hnow'
    rw [eq_of_mem_follow (q := .clock) nofun hnow, eq_of_mem_follow (q := .clock) nofun hnow',
      hclock]
  epoch := by
    apply Alongside.of_forall
    intro now hnow now' hnow'
    rw [eq_of_mem_follow (q := .epoch) nofun hnow, eq_of_mem_follow (q := .epoch) nofun hnow',
      hepoch]
  nonces := by
    apply Alongside.of_forall
    intro reply hreply reply' hreply'
    obtain ⟨call, deadline, hcall, rfl⟩ := reply_of_mem_follow hreply
    obtain ⟨call', deadline', hcall', rfl⟩ := reply_of_mem_follow hreply'
    exact hnonces call call' deadline deadline' hcall hcall'
  replies := by
    intro operation hother
    apply Alongside.of_forall
    intro reply hreply reply' hreply'
    obtain ⟨call, deadline, rfl, rfl⟩ := reply_of_mem_follow hreply
    obtain ⟨call', deadline', hcall', rfl⟩ := reply_of_mem_follow hreply'
    exact hreplies call call' deadline deadline' hother hcall'

end SoftwareDevice

def Query.isDevice : Query → Bool
  | .device _ => true
  | _ => false

theorem Query.isDevice_iff {q : Query} : q.isDevice = true ↔ ∃ query, q = .device query := by
  cases q <;> simp [isDevice]

namespace Likeness

variable {L : Likeness} {e e' : Event}

theorem QueryLike.isDevice_eq {q q' : Query} (h : L.QueryLike q q') :
    q'.isDevice = q.isDevice := by
  cases h <;> rfl

/-- Of like questions both or none are this one, in which nothing may differ. -/
theorem QueryLike.eq_iff {q q' r : Query} (h : L.QueryLike q q') (hr : r.isPlain = true) :
    q = r ↔ q' = r := by
  cases h with
  | plain => exact Iff.rfl
  | _ =>
    constructor <;>
    · rintro rfl
      exact nomatch hr

theorem QueryLike.answer_isSome (h : L.QueryLike e.query e'.query) {r : Query}
    (hr : r.isPlain = true) : (e.answer? r).isSome = (e'.answer? r).isSome := by
  rw [Bool.eq_iff_iff, Event.isSome_answer?_iff, Event.isSome_answer?_iff]
  exact h.eq_iff hr

theorem QueryLike.reply_isSome (h : L.QueryLike e.query e'.query) (operation : Operation) :
    (e.reply? operation).isSome = (e'.reply? operation).isSome := by
  obtain ⟨q, answer⟩ := e
  obtain ⟨q', answer'⟩ := e'
  cases h with
  | plain _ h =>
    cases q with
    | send => exact nomatch h
    | _ => rfl
  | send h =>
    simp only [Event.reply?, h.operation_eq]
    split <;> rfl
  | _ => rfl

end Likeness

namespace SurroundedAlike

variable {L : Likeness} {events events' : List Event}

theorem tail {nonces : Reply → Reply → Prop} {e e' : Event}
    (h : SurroundedAlike nonces (e :: events) (e' :: events'))
    (hquery : L.QueryLike e.query e'.query) : SurroundedAlike nonces events events' where
  clock := (h.clock.uncons (hquery.answer_isSome rfl)).2
  epoch := (h.epoch.uncons (hquery.answer_isSome rfl)).2
  nonces := (h.nonces.uncons (hquery.reply_isSome _)).2
  replies operation hother := ((h.replies operation hother).uncons (hquery.reply_isSome _)).2

/-- What the clocks and the service answer to like questions is alike. -/
theorem head {e e' : Event} (h : SurroundedAlike L.nonce (e :: events) (e' :: events'))
    (hquery : L.QueryLike e.query e'.query) (hdevice : e.query.isDevice = false) :
    L.EventLike e e' := by
  have hclock := (h.clock.uncons (hquery.answer_isSome rfl)).1
  have hepoch := (h.epoch.uncons (hquery.answer_isSome rfl)).1
  have hnonce := (h.nonces.uncons (hquery.reply_isSome _)).1
  have hreply operation hother :=
    ((h.replies operation hother).uncons (hquery.reply_isSome _)).1
  clear h
  obtain ⟨q, answer⟩ := e
  obtain ⟨q', answer'⟩ := e'
  cases hquery with
  | plain _ hplain =>
    cases q with
    | device => exact nomatch hdevice
    | send => exact nomatch hplain
    | clock =>
      obtain rfl : answer = answer' := hclock _ _ (Event.answer?_self _ _) (Event.answer?_self _ _)
      exact .plain hplain _
    | epoch =>
      obtain rfl : answer = answer' := hepoch _ _ (Event.answer?_self _ _) (Event.answer?_self _ _)
      exact .plain hplain _
    | sleep | enter => exact .plain hplain _
  | send hcall deadline =>
    rename_i request request'
    have hoperation := hcall.operation_eq
    by_cases hfirst : request.operation = .requestNonce
    · refine .nonce hcall hfirst deadline (hnonce _ _ ?_ ?_)
      · simp only [Event.reply?, hfirst, if_true]
      · simp only [Event.reply?, hoperation, hfirst, if_true]
    · obtain rfl : answer = answer' := by
        apply hreply request.operation hfirst
        · simp only [Event.reply?, if_true]
        · simp only [Event.reply?, hoperation, if_true]
      exact .send hcall hfirst deadline _
  | _ => exact nomatch hdevice

theorem tracks (h : SurroundedAlike L.nonce events events') :
    L.Tracks (fun q ↦ ¬ q.isDevice) events events' := by
  induction events generalizing events' with
  | nil => trivial
  | cons e events ih =>
    cases events' with
    | nil => trivial
    | cons e' events' =>
      intro hquery
      refine ⟨fun hdevice ↦ h.head hquery ?_, ih (h.tail hquery)⟩
      simpa using hdevice

end SurroundedAlike

/-! ### Devices side by side -/

/-- Like keys are both empty or both not, sign alike, and the one credential of a
software device is like itself. -/
structure Likeness.FitsSoftware (L : Likeness) : Prop where
  empty : ∀ {key key' : Bytes}, L.key key key' → key'.isEmpty = key.isEmpty
  signed : ∀ {key key' : Bytes}, L.key key key' → ∀ data,
    ResultLike L.signature (Enrollment.signature key data) (Enrollment.signature key' data)
  credential : L.credential .serverAuthOnly .serverAuthOnly

namespace SoftwareDevice

variable {L : Likeness} {d d' : SoftwareDevice} {events events' : List Event}

/-- Devices that differ at most in the key imported last. -/
structure Like (L : Likeness) (d d' : SoftwareDevice) : Prop where
  registrationId : d'.registrationId = d.registrationId
  endorsementKey : d'.endorsementKey = d.endorsementKey
  storageRootKey : d'.storageRootKey = d.storageRootKey
  importedKey : Option.Rel L.key d.importedKey d'.importedKey

theorem Like.refl (hkey : ∀ key, L.key key key) (d : SoftwareDevice) : Like L d d where
  registrationId := rfl
  endorsementKey := rfl
  storageRootKey := rfl
  importedKey := by
    cases d.importedKey with
    | none => exact .none
    | some key => exact .some (hkey key)

theorem Like.sign (hfits : L.FitsSoftware) (h : Like L d d') (data : Bytes) :
    ResultLike L.signature (d.sign data) (d'.sign data) := by
  obtain ⟨id, ek, srk, imported⟩ := d
  obtain ⟨id', ek', srk', imported'⟩ := d'
  cases h.importedKey with
  | none => exact .error _
  | some hlike => exact hfits.signed hlike data

theorem Like.import (hfits : L.FitsSoftware) (h : Like L d d') {key key' : Bytes}
    (hkey : L.key key key') :
    (d'.importKey key').1 = (d.importKey key).1 ∧
      Like L (d.importKey key).2 (d'.importKey key').2 := by
  unfold SoftwareDevice.importKey
  rw [hfits.empty hkey]
  split
  · exact ⟨rfl, h⟩
  · exact ⟨rfl, h.registrationId, h.endorsementKey, h.storageRootKey, .some hkey⟩

theorem Like.answer_eq (h : Like L d d') {q : DeviceQuery}
    (hplain : (Query.device q).isPlain = true) :
    (d'.answer q).1 = (d.answer q).1 ∧ Like L (d.answer q).2 (d'.answer q).2 := by
  cases q with
  | registrationId => exact ⟨congrArg Except.ok h.registrationId, h⟩
  | endorsementKey => exact ⟨congrArg Except.ok h.endorsementKey, h⟩
  | storageRootKey => exact ⟨congrArg Except.ok h.storageRootKey, h⟩
  | _ => exact nomatch hplain

/-- To like questions like devices give like answers, and stay alike. -/
theorem Like.answer (hfits : L.FitsSoftware) (h : Like L d d') {q q' : DeviceQuery}
    (hquery : L.QueryLike (.device q) (.device q')) :
    L.EventLike ⟨.device q, (d.answer q).1⟩ ⟨.device q', (d'.answer q').1⟩ ∧
      Like L (d.answer q).2 (d'.answer q').2 := by
  cases hquery with
  | plain _ hplain =>
    obtain ⟨hanswer, hlike⟩ := h.answer_eq hplain
    rw [hanswer]
    exact ⟨.plain hplain _, hlike⟩
  | credential => exact ⟨.credential (.ok (.some hfits.credential)), h⟩
  | sign data => exact ⟨.sign data (h.sign hfits data), h⟩
  | importKey hkey =>
    obtain ⟨hanswer, hlike⟩ := h.import hfits hkey
    refine ⟨?_, hlike⟩
    rw [SoftwareDevice.answer, SoftwareDevice.answer, hanswer]
    exact .importKey hkey _

theorem answers_cons_of_other {e : Event} (h : e.query.isDevice = false) :
    d.Answers (e :: events) ↔ d.Answers events := by
  obtain ⟨query, answer⟩ := e
  cases query with
  | device q => exact nomatch h
  | _ => exact Iff.rfl

theorem Like.tracks (hfits : L.FitsSoftware) (h : Like L d d') (hanswers : d.Answers events)
    (hanswers' : d'.Answers events') : L.Tracks (fun q ↦ q.isDevice) events events' := by
  induction events generalizing d d' events' with
  | nil => trivial
  | cons e events ih =>
    cases events' with
    | nil => trivial
    | cons e' events' =>
      intro hquery
      cases hdevice : e.query.isDevice with
      | true =>
        obtain ⟨query, answer⟩ := e
        obtain ⟨query', answer'⟩ := e'
        obtain ⟨q, rfl⟩ := Query.isDevice_iff.mp hdevice
        obtain ⟨q', rfl⟩ := Query.isDevice_iff.mp (hquery.isDevice_eq.trans hdevice)
        obtain ⟨rfl, hrest⟩ := answers_device_cons_iff.mp hanswers
        obtain ⟨rfl, hrest'⟩ := answers_device_cons_iff.mp hanswers'
        obtain ⟨hevent, hlike⟩ := h.answer hfits hquery
        exact ⟨fun _ ↦ hevent, ih hlike hrest hrest'⟩
      | false =>
        have hrest := (answers_cons_of_other hdevice).mp hanswers
        have hrest' := (answers_cons_of_other (hquery.isDevice_eq.trans hdevice)).mp hanswers'
        exact ⟨fun hin ↦ absurd (hdevice.symm.trans hin) nofun, ih h hrest hrest'⟩

end SoftwareDevice

namespace CertificateDevice

variable {L : Likeness} {d d' : CertificateDevice} {events events' : List Event}

/-- The questions to the device among these were answered by it. -/
def Answers (d : CertificateDevice) (events : List Event) : Prop :=
  ∀ query answer, ⟨.device query, answer⟩ ∈ events → answer = d.answer query

/-- To like questions devices with like credentials give like answers. -/
theorem answer_like (hid : d'.registrationId = d.registrationId)
    (hcredential : L.credential d.credential d'.credential) {q q' : DeviceQuery}
    (hquery : L.QueryLike (.device q) (.device q')) :
    L.EventLike ⟨.device q, d.answer q⟩ ⟨.device q', d'.answer q'⟩ := by
  cases hquery with
  | plain _ hplain =>
    have hanswer : d'.answer q = d.answer q := by
      cases q with
      | registrationId => simp only [CertificateDevice.answer, hid]
      | credential => exact nomatch hplain
      | _ => rfl
    rw [hanswer]
    exact .plain hplain _
  | credential => exact .credential (.ok (.some hcredential))
  | sign data => exact .sign data (.error _)
  | importKey hkey => exact .importKey hkey _

theorem tracks (hid : d'.registrationId = d.registrationId)
    (hcredential : L.credential d.credential d'.credential) (hanswers : d.Answers events)
    (hanswers' : d'.Answers events') : L.Tracks (fun q ↦ q.isDevice) events events' := by
  induction events generalizing events' with
  | nil => trivial
  | cons e events ih =>
    cases events' with
    | nil => trivial
    | cons e' events' =>
      intro hquery
      have hrest : d.Answers events := fun q answer hmem ↦
        hanswers q answer (List.mem_cons_of_mem _ hmem)
      have hrest' : d'.Answers events' := fun q answer hmem ↦
        hanswers' q answer (List.mem_cons_of_mem _ hmem)
      refine ⟨fun hdevice ↦ ?_, ih hrest hrest'⟩
      obtain ⟨query, answer⟩ := e
      obtain ⟨query', answer'⟩ := e'
      obtain ⟨q, rfl⟩ := Query.isDevice_iff.mp hdevice
      obtain ⟨q', rfl⟩ := Query.isDevice_iff.mp (hquery.isDevice_eq.trans hdevice)
      obtain rfl := hanswers q answer List.mem_cons_self
      obtain rfl := hanswers' q' answer' List.mem_cons_self
      exact answer_like hid hcredential hquery

end CertificateDevice

/-! ### Two runs of one attempt -/

/-- Two runs that have both returned, or that have taken as many turns each. -/
def Abreast (n m : Nat) (left left' : Client.Progress × Client) : Prop :=
  n = m ∨ (∃ found, left.1 = .finished found) ∧ ∃ found, left'.1 = .finished found

theorem Abreast.level {c : Client} {n m : Nat} {events events' : List Event}
    {left left' : Client.Progress × Client} (h : Abreast n m left left')
    (hrun : Runs (c.attempt n) events left) (hrun' : Runs (c.attempt m) events' left') :
    ∃ turns, Runs (c.attempt turns) events left ∧ Runs (c.attempt turns) events' left' := by
  obtain ⟨progress, last⟩ := left
  obtain ⟨progress', last'⟩ := left'
  rcases h with rfl | ⟨⟨found, rfl⟩, ⟨found', rfl⟩⟩
  · exact ⟨n, hrun, hrun'⟩
  · exact ⟨max n m, Client.attempt_finished_of_le (Nat.le_max_left n m) hrun,
      Client.attempt_finished_of_le (Nat.le_max_right n m) hrun'⟩

/-- Two runs of an attempt that differ in nothing but what may differ. -/
structure SameBut (L : Likeness) (events events' : List Event)
    (left left' : Client.Progress × Client) : Prop where
  asked : List.Forall₂ L.EventLike events events'
  calls : List.Forall₂ L.CallLike (calls events) (calls events')
  entered : entered events' = entered events
  result : ∀ found, left'.1 = .finished found ↔ left.1 = .finished found
  left : L.LeftLike left left'

namespace Likeness

variable {L : Likeness} {events events' : List Event} {left left' : Client.Progress × Client}

theorem calls_like (h : List.Forall₂ L.EventLike events events') :
    List.Forall₂ L.CallLike (calls events) (calls events') := by
  induction h with
  | nil => exact .nil
  | @cons e e' events events' hevent _ ih =>
    cases hevent with
    | @plain q hplain =>
      cases q with
      | send => exact nomatch hplain
      | _ => exact ih
    | nonce hcall => exact .cons hcall ih
    | send hcall => exact .cons hcall ih
    | _ => exact ih

theorem entered_eq (h : List.Forall₂ L.EventLike events events') :
    entered events' = entered events := by
  induction h with
  | nil => rfl
  | @cons e e' events events' hevent _ ih =>
    cases hevent with
    | @plain q =>
      cases q with
      | enter state => exact congrArg (state :: ·) ih
      | _ => exact ih
    | _ => exact ih

theorem ProgressLike.finished_iff {progress progress' : Client.Progress}
    (h : L.ProgressLike progress progress') (found : Except Error Outcome) :
    progress' = .finished found ↔ progress = .finished found := by
  cases h with
  | finished => exact Iff.rfl
  | polling => exact ⟨nofun, nofun⟩

/-- Runs of an attempt are the same but for what devices and nonces may differ in. -/
theorem sameBut_of_tracks {c : Client} {n m : Nat} (hrun : Runs (c.attempt n) events left)
    (hrun' : Runs (c.attempt m) events' left') (habreast : Abreast n m left left')
    (hsame : SurroundedAlike L.nonce events events')
    (hdevice : L.Tracks (fun q ↦ q.isDevice) events events') :
    SameBut L events events' left left' := by
  obtain ⟨turns, hrun, hrun'⟩ := habreast.level hrun hrun'
  obtain ⟨hasked, hleft⟩ :=
    (Coupled.of_attempt c turns).tracked hrun hrun' hdevice hsame.tracks
  exact ⟨hasked, calls_like hasked, entered_eq hasked, hleft.1.finished_iff, hleft⟩

end Likeness
end Enrollment
