import Enrollment.Proofs.SoftwareHandshake
namespace Enrollment

/-!
# A software device over a whole run

However a device is asked, in whatever order, it shows the identity it was built with
and signs with the key that was imported last.  An empty key is refused, and then the
device is as it was.
-/

namespace SoftwareDevice

/-! ### What is due -/

/-- These questions import no key but empty ones. -/
def ImportsNone (qs : List DeviceQuery) : Prop := ∀ key, .importKey key ∈ qs → key = []

/-- The last key that these questions import, empty ones apart. -/
def ImportsLast (key : Bytes) (qs : List DeviceQuery) : Prop :=
  key ≠ [] ∧ ∃ earlier since, qs = earlier ++ .importKey key :: since ∧ ImportsNone since

/-- What a device with this identity must answer to a question, by the questions
before. -/
inductive Due (i : KeyIdentity) (before : List DeviceQuery) : (q : DeviceQuery) → q.Answer → Prop
  | registrationId : Due i before .registrationId (.ok i.registrationId)
  | endorsementKey : Due i before .endorsementKey (.ok i.endorsementKey)
  | storageRootKey : Due i before .storageRootKey (.ok i.storageRootKey)
  | credential : Due i before .credential (.ok (some .serverAuthOnly))
  | imported {key : Bytes} (h : key ≠ []) : Due i before (.importKey key) (.ok ())
  | refused {error : Error} (h : error.kind = .security) :
      Due i before (.importKey []) (.error error)
  | unsigned {data : Bytes} {error : Error} (hnone : ImportsNone before)
      (h : error.kind = .security) : Due i before (.sign data) (.error error)
  | signed {key data mac : Bytes} (hlast : ImportsLast key before)
      (hmac : mac = Hmac.sign key data) (hlength : mac.length = 32) :
      Due i before (.sign data) (.ok mac)

theorem importsNone_append_iff {qs qs' : List DeviceQuery} :
    ImportsNone (qs ++ qs') ↔ ImportsNone qs ∧ ImportsNone qs' := by
  simp [ImportsNone, or_imp, forall_and]

theorem ImportsLast.append {key : Bytes} {qs qs' : List DeviceQuery} (h : ImportsLast key qs)
    (h' : ImportsNone qs') : ImportsLast key (qs ++ qs') := by
  obtain ⟨hne, earlier, since, rfl, hsince⟩ := h
  refine ⟨hne, earlier, since ++ qs', ?_, importsNone_append_iff.mpr ⟨hsince, h'⟩⟩
  rw [List.append_assoc, List.cons_append]

/-! ### One question -/

/-- The device that these questions left: it has kept its identity, and the last key. -/
structure LeftBy (i : KeyIdentity) (before : List DeviceQuery) (d : SoftwareDevice) : Prop where
  identity : d.identity = i
  key : ImportsNone before ∧ d.importedKey = none ∨
    ∃ key, ImportsLast key before ∧ d.importedKey = some key

theorem leftBy_new (id : String) (ek srk : Bytes) :
    LeftBy ⟨id, ek, srk⟩ [] (new id ek srk) where
  identity := rfl
  key := .inl ⟨fun _ h ↦ absurd h List.not_mem_nil, rfl⟩

namespace LeftBy

variable {i : KeyIdentity} {before : List DeviceQuery} {d : SoftwareDevice}

/-- A question that imports nothing leaves the key. -/
theorem of_importsNone (h : LeftBy i before d) {q : DeviceQuery} (hnone : ImportsNone [q])
    (hkey : (d.answer q).2.importedKey = d.importedKey) :
    LeftBy i (before ++ [q]) (d.answer q).2 where
  identity := (identity_answer d q).trans h.identity
  key := by
    rw [hkey]
    rcases h.key with ⟨hbefore, hd⟩ | ⟨key, hlast, hd⟩
    · exact .inl ⟨importsNone_append_iff.mpr ⟨hbefore, hnone⟩, hd⟩
    · exact .inr ⟨key, hlast.append hnone, hd⟩

theorem answer (h : LeftBy i before d) (q : DeviceQuery) :
    LeftBy i (before ++ [q]) (d.answer q).2 := by
  cases q with
  | importKey key =>
    by_cases hkey : key = []
    · subst hkey
      apply h.of_importsNone
      · simp [ImportsNone]
      · rfl
    · have hnew : (d.answer (.importKey key)).2.importedKey = some key := by
        rw [SoftwareDevice.answer, importKey_of_ne_nil d hkey]
      refine ⟨(identity_answer d _).trans h.identity, .inr ⟨key, ⟨hkey, before, [], rfl, ?_⟩, hnew⟩⟩
      simp [ImportsNone]
  | _ =>
    apply h.of_importsNone
    · simp [ImportsNone]
    · rfl

/-- What such a device answers is due. -/
theorem due (h : LeftBy i before d) (q : DeviceQuery) : Due i before q (d.answer q).1 := by
  obtain ⟨rfl, hkey⟩ := h
  cases q with
  | registrationId => exact .registrationId
  | endorsementKey => exact .endorsementKey
  | storageRootKey => exact .storageRootKey
  | credential => exact .credential
  | importKey key =>
    by_cases hne : key = []
    · subst hne
      exact .refused rfl
    · rw [SoftwareDevice.answer, importKey_of_ne_nil d hne]
      exact .imported hne
  | sign data =>
    rw [SoftwareDevice.answer, sign]
    rcases hkey with ⟨hnone, hd⟩ | ⟨key, hlast, hd⟩
    · rw [hd]
      exact .unsigned hnone rfl
    · rw [hd]
      simp only [signature_of_ne_nil hlast.1]
      exact .signed hlast rfl (Hmac.length_sign key data)

end LeftBy

/-! ### Runs -/

/-- The answers of a device that is asked one question after another. -/
def replies : SoftwareDevice → List DeviceQuery → List ((q : DeviceQuery) × q.Answer)
  | _, [] => []
  | d, q :: qs => ⟨q, (d.answer q).1⟩ :: (d.answer q).2.replies qs

theorem map_fst_replies (d : SoftwareDevice) (qs : List DeviceQuery) :
    (d.replies qs).map Sigma.fst = qs := by
  induction qs generalizing d with
  | nil => rfl
  | cons q qs ih => rw [replies, List.map_cons, ih]

theorem exists_replies_append (d : SoftwareDevice) (before : List DeviceQuery) :
    ∃ left : SoftwareDevice, ∀ later, d.replies (before ++ later) =
      d.replies before ++ left.replies later := by
  induction before generalizing d with
  | nil => exact ⟨d, fun _ ↦ rfl⟩
  | cons q before ih =>
    obtain ⟨left, hleft⟩ := ih (d.answer q).2
    refine ⟨left, fun later ↦ ?_⟩
    rw [List.cons_append, replies, replies, hleft, List.cons_append]

/-- Along a run every answer is due, each question adding to those before. -/
theorem LeftBy.due_of_replies {i : KeyIdentity} {before qs : List DeviceQuery} {d : SoftwareDevice}
    (h : LeftBy i before d) {past later : List ((q : DeviceQuery) × q.Answer)} {q : DeviceQuery}
    {a : q.Answer} (hreplies : d.replies qs = past ++ ⟨q, a⟩ :: later) :
    Due i (before ++ past.map Sigma.fst) q a := by
  induction past generalizing before qs d with
  | nil =>
    cases qs with
    | nil => exact nomatch hreplies
    | cons q' qs =>
      cases hreplies
      rw [List.map_nil, List.append_nil]
      exact h.due q
  | cons first past ih =>
    cases qs with
    | nil => exact nomatch hreplies
    | cons q' qs =>
      rw [replies, List.cons_append] at hreplies
      obtain ⟨rfl, hrest⟩ := List.cons.inj hreplies
      have hdue := ih (h.answer q') hrest
      rwa [List.append_assoc] at hdue

/-- The runs of a device with this identity: every question is answered, every answer is
due, and an import of the empty key is refused and changes no later answer. -/
structure KeepsLastKey (i : KeyIdentity) (d : SoftwareDevice) : Prop where
  answered : ∀ qs, (d.replies qs).map Sigma.fst = qs
  due : ∀ qs past q a later, d.replies qs = past ++ ⟨q, a⟩ :: later →
    Due i (past.map Sigma.fst) q a
  unnoticed : ∀ before later, ∃ error rest, error.kind = Error.Kind.security ∧
    d.replies (before ++ later) = d.replies before ++ rest ∧
    d.replies (before ++ .importKey [] :: later) =
      d.replies before ++ ⟨.importKey [], .error error⟩ :: rest

theorem LeftBy.keepsLastKey {i : KeyIdentity} {d : SoftwareDevice} (h : LeftBy i [] d) :
    KeepsLastKey i d where
  answered := map_fst_replies d
  due qs past q a later hreplies := h.due_of_replies hreplies
  unnoticed before later := by
    obtain ⟨left, hleft⟩ := exists_replies_append d before
    refine ⟨.security .emptyImportedKey, left.replies later, rfl, hleft later, ?_⟩
    rw [hleft]
    rfl

/-- A device that has just been built, with an id of its own or with that of its
endorsement key, signs over all its runs with the key imported last. -/
theorem built_device_keeps_last_key :
    (∀ id ek srk, KeepsLastKey ⟨id, ek, srk⟩ (new id ek srk)) ∧
      ∀ ek srk, KeepsLastKey ⟨registrationIdOfKey ek, ek, srk⟩ (ofKeys ek srk) := by
  constructor
  · intro id ek srk
    exact (leftBy_new id ek srk).keepsLastKey
  · intro ek srk
    exact (leftBy_new (registrationIdOfKey ek) ek srk).keepsLastKey

end SoftwareDevice
end Enrollment
