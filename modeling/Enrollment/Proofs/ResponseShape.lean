import Enrollment.Outcome
import Enrollment.Proofs.Meaning
namespace Enrollment

/-!
# The two shapes of a body

The service describes a registration beside the operation id or in a record of its
own.  A description is read from what its fields mean, so the two bodies give the
same two descriptions, one of them empty, in opposite places; and an outcome does
not depend on the place of the one that is not.
-/

open Json

/-! ### Reading a description -/

namespace Description

/-- The parts of a description by their names. -/
def parts : List (String × (Description → Option String)) :=
  [("registrationId", registrationId), ("status", status), ("assignedHub", assignedHub),
    ("deviceId", deviceId), ("generationId", generationId), ("errorCode", errorCode),
    ("errorMessage", errorMessage), ("message", message), ("createdDateTimeUtc", createdAt),
    ("lastUpdatedDateTimeUtc", lastUpdatedAt), ("etag", etag)]

/-- What is read under the name of a part.  All but the error code must be texts. -/
def part? (room : Nat) (name : String) (members : Members) : Option (Option String) :=
  if name = "errorCode" then members.anyText? room name else members.optionalText? name

/-- A description is read part by part. -/
theorem ofMembers?_eq_some_iff {room : Nat} {members : Members} {d : Description} :
    ofMembers? room members = some d ↔
      ∀ p ∈ parts, part? room p.1 members = some (p.2 d) := by
  simp only [ofMembers?, Option.bind_eq_bind, Option.bind_eq_some_iff, parts,
    List.forall_mem_cons, part?, String.reduceEq, if_true, if_false]
  constructor
  · rintro ⟨_, h₁, _, h₂, _, h₃, _, h₄, _, h₅, _, h₆, _, h₇, _, h₈, _, h₉, _, h₁₀, _, h₁₁, heq⟩
    cases heq
    exact ⟨h₁, h₂, h₃, h₄, h₅, h₆, h₇, h₈, h₉, h₁₀, h₁₁, List.forall_mem_nil _⟩
  · rintro ⟨h₁, h₂, h₃, h₄, h₅, h₆, h₇, h₈, h₉, h₁₀, h₁₁, -⟩
    exact ⟨_, h₁, _, h₂, _, h₃, _, h₄, _, h₅, _, h₆, _, h₇, _, h₈, _, h₉, _, h₁₀, _, h₁₁, rfl⟩

theorem exists_part?_of_ofMembers? {room : Nat} {members : Members} {d : Description}
    (h : ofMembers? room members = some d) {name : String} (hname : name ∈ fields) :
    ∃ s, part? room name members = some s := by
  obtain ⟨p, hp, rfl⟩ := List.mem_map.mp (show name ∈ parts.map Prod.fst from hname)
  exact ⟨_, ofMembers?_eq_some_iff.mp h p hp⟩

theorem ofMembers?_eq_of_part? {room room' : Nat} {members members' : Members}
    (h : ∀ name ∈ fields, part? room name members = part? room' name members') :
    ofMembers? room members = ofMembers? room' members' := by
  refine Option.ext fun d ↦ ?_
  have hpart (p) (hp : p ∈ parts) : part? room p.1 members = part? room' p.1 members' :=
    h p.1 (List.mem_map_of_mem hp)
  simp +contextual only [ofMembers?_eq_some_iff, hpart]

/-- A description is read from what its fields mean. -/
theorem ofMembers?_congr {room room' : Nat} {members members' : Members}
    (h : ∀ name ∈ fields, (members.meant room name).Perm (members'.meant room' name)) :
    ofMembers? room members = ofMembers? room' members' := by
  refine ofMembers?_eq_of_part? fun name hname ↦ ?_
  rw [part?, part?]
  split
  · rw [Members.anyText?_eq_sole, Members.anyText?_eq_sole]
    exact Members.sole_perm ((h name hname).map _)
  · rw [Members.optionalText?_eq_sole room, Members.optionalText?_eq_sole room']
    exact Members.sole_perm ((h name hname).map _)

/-- Whatever a description is read from has a meaning. -/
theorem isSome_of_ofMembers? {room : Nat} {members : Members} {d : Description}
    (h : ofMembers? room members = some d) :
    ∀ name ∈ fields, ∀ v ∈ members.meant room name, v.isSome := by
  intro name hname
  obtain ⟨s, hs⟩ := exists_part?_of_ofMembers? h hname
  rw [part?] at hs
  split at hs
  · rw [Members.anyText?_eq_sole] at hs
    exact Members.isSome_of_sole rfl hs
  · rw [Members.optionalText?_eq_sole room] at hs
    exact Members.isSome_of_sole rfl hs

/-- The members that give a status. -/
def statusOf (registration : Members) : Members :=
  registration.filter fun m ↦ m.1 == "status"

theorem named_statusOf_self (registration : Members) :
    (statusOf registration).named "status" = registration.named "status" := by
  rw [Members.named, Members.named, statusOf, List.filter_filter]
  simp only [Bool.and_self]

theorem named_statusOf_of_ne (registration : Members) {name : String} (h : name ≠ "status") :
    (statusOf registration).named name = [] := by
  refine Members.named_eq_nil fun m hm heq ↦ h ?_
  rw [← heq]
  simpa using (List.mem_filter.mp hm).2

/-- What the status members of a description are read as on their own. -/
theorem ofMembers?_statusOf {room : Nat} {registration : Members} {d : Description}
    (h : ofMembers? room registration = some d) :
    ofMembers? room (statusOf registration) = some { empty with status := d.status } := by
  have hstatus : registration.optionalText? "status" = some d.status :=
    ofMembers?_eq_some_iff.mp h ("status", status) (by simp [parts])
  have htaken : (statusOf registration).optionalText? "status" = some d.status := by
    rw [← hstatus, Members.optionalText?_eq_sole room, Members.optionalText?_eq_sole room,
      Members.meant, Members.meant, named_statusOf_self]
  have htext : ∀ name ≠ "status", (statusOf registration).optionalText? name = some none :=
    fun name hname ↦ Members.optionalText?_of_absent (named_statusOf_of_ne registration hname)
  have hcode : (statusOf registration).anyText? room "errorCode" = some none :=
    Members.anyText?_of_absent (named_statusOf_of_ne registration (by decide))
  simp (disch := decide) only [ofMembers?, htext, hcode, htaken]
  rfl

end Description

/-! ### Reading a body -/

namespace Response

theorem ofMembers?_eq (members : Members) :
    ofMembers? members = (do
      let operationId ← members.optionalText? "operationId"
      let top ← Description.ofMembers? (maxDepth - 1) members
      let nested ← members.ask "registrationState" .empty Description.ofTree?
      if members.all fun m ↦ m.1 == "registrationState" || (m.2.value? (maxDepth - 1)).isSome then
        return ⟨operationId, top, nested⟩
      else none) := by
  rw [ofMembers?, Members.ask]
  cases members.lookup? "registrationState" with
  | none => rfl
  | some found => cases found <;> rfl

/-- The top level of a body holds an operation id and what is said beside it, and
nothing else but the record. -/
structure IsTop (operation said members : Members) : Prop where
  identified : ∀ m ∈ operation, m.1 = "operationId"
  known : ∀ m ∈ said, m.1 ∈ Description.fields
  same : ∀ name ≠ "registrationState",
    (members.meant (maxDepth - 1) name).Perm ((operation ++ said).meant (maxDepth - 1) name)

/-- None of these members is a record. -/
theorem ne_registrationState {operation said : Members}
    (hoperation : ∀ m ∈ operation, m.1 = "operationId")
    (hsaid : ∀ m ∈ said, m.1 ∈ Description.fields) :
    ∀ m ∈ operation ++ said, m.1 ≠ "registrationState" := by
  intro m hm heq
  rcases List.mem_append.mp hm with hm | hm
  · exact absurd ((hoperation m hm).symm.trans heq) (by decide)
  · exact absurd (heq ▸ hsaid m hm) (by decide)

namespace IsTop

variable {operation said members : Members} (h : IsTop operation said members)
include h

theorem operationId :
    members.optionalText? "operationId" = operation.optionalText? "operationId" := by
  have hnone : said.meant (maxDepth - 1) "operationId" = [] :=
    Members.meant_eq_nil fun m hm heq ↦ absurd (heq ▸ h.known m hm) (by decide)
  have hperm := h.same "operationId" (by decide)
  rw [Members.meant_append, hnone, List.append_nil] at hperm
  rw [Members.optionalText?_eq_sole (maxDepth - 1), Members.optionalText?_eq_sole (maxDepth - 1)]
  exact Members.sole_perm (hperm.map _)

theorem description :
    Description.ofMembers? (maxDepth - 1) members =
      Description.ofMembers? (maxDepth - 1) said := by
  refine Description.ofMembers?_congr fun name hname ↦ ?_
  have hnone : operation.meant (maxDepth - 1) name = [] := by
    refine Members.meant_eq_nil fun m hm heq ↦ ?_
    rw [← heq, h.identified m hm] at hname
    exact absurd hname (by decide)
  have hperm := h.same name (by rintro rfl; exact absurd hname (by decide))
  rwa [Members.meant_append, hnone, List.nil_append] at hperm

/-- Once the members with known names are read, no other has to be looked at. -/
theorem all_isSome {operationId : Option String} {top : Description}
    (hid : operation.optionalText? "operationId" = some operationId)
    (htop : Description.ofMembers? (maxDepth - 1) said = some top) :
    (members.all fun m ↦
      m.1 == "registrationState" || (m.2.value? (maxDepth - 1)).isSome) = true := by
  refine List.all_eq_true.mpr fun m hm ↦ ?_
  by_cases hrecord : m.1 = "registrationState"
  · simp [hrecord]
  have hown : m.2.value? (maxDepth - 1) ∈ members.meant (maxDepth - 1) m.1 :=
    Members.mem_meant_iff.mpr ⟨m, hm, rfl, rfl⟩
  have hmeant := (h.same m.1 hrecord).mem_iff.mp hown
  have hsome : (m.2.value? (maxDepth - 1)).isSome := by
    rw [Members.meant_append, List.mem_append] at hmeant
    rcases hmeant with hmeant | hmeant
    · obtain ⟨m', hm', hname, -⟩ := Members.mem_meant_iff.mp hmeant
      rw [← hname, h.identified m' hm'] at hmeant
      rw [Members.optionalText?_eq_sole (maxDepth - 1)] at hid
      exact Members.isSome_of_sole rfl hid _ hmeant
    · obtain ⟨m', hm', hname, -⟩ := Members.mem_meant_iff.mp hmeant
      exact Description.isSome_of_ofMembers? htop m.1 (hname ▸ h.known m' hm') _ hmeant
  simp [hsome]

/-- The top level gives the operation id and the description beside it; the record
is read apart. -/
theorem ofMembers? :
    Response.ofMembers? members = (do
      let operationId ← operation.optionalText? "operationId"
      let top ← Description.ofMembers? (maxDepth - 1) said
      let nested ← members.ask "registrationState" .empty Description.ofTree?
      return ⟨operationId, top, nested⟩) := by
  rw [ofMembers?_eq, h.operationId, h.description]
  cases hid : operation.optionalText? "operationId" with
  | none => rfl
  | some operationId =>
    cases htop : Description.ofMembers? (maxDepth - 1) said with
    | none => rfl
    | some top =>
      simp only [h.all_isSome hid htop, if_true]

end IsTop

/-- A description gives the same outcome at the top level and in the record, with or
without its status at the top level too. -/
theorem outcome_top_eq_nested (operationId : Option String) (d : Description)
    {status : Option String} (hstatus : status = none ∨ status = d.status) :
    outcome ⟨operationId, d, .empty⟩ =
      outcome ⟨operationId, { Description.empty with status }, d⟩ := by
  have hsame : (status <|> d.status) = d.status := by
    rcases hstatus with rfl | rfl
    · rfl
    · cases d.status <;> rfl
  have hempty (x : Option String) : (x <|> none) = x := by cases x <;> rfl
  simp only [outcome, hsame, Description.empty, hempty]
  rfl

end Response

/-! ### The two shapes -/

/-- The members of a description, none of them nested so deep that a body with a
record could not hold it. -/
structure IsRegistration (registration : Members) : Prop where
  known : ∀ m ∈ registration, m.1 ∈ Description.fields
  nesting : ∀ m ∈ registration, m.2.depth ≤ maxDepth - 2

/-- A body with these members, in any order and each written in any way. -/
def IsFlat (members : Members) (body : Bytes) : Prop :=
  ∃ found, HasMembers body found ∧ found.Alike members

/-- A body with these members, and a registration in a record of its own. -/
def IsWrapped (members registration : Members) (body : Bytes) : Prop :=
  ∃ found rest inner : Members, ∃ record : Tree,
    HasMembers body found ∧ found.Perm (("registrationState", record) :: rest) ∧
      rest.Alike members ∧ record.object? = some inner ∧ inner.Alike registration

namespace Response

variable {operation registration : Members} {body : Bytes}

theorem ofBytes?_of_hasMembers {members : Members} (h : HasMembers body members) :
    ofBytes? body = ofMembers? members := by
  obtain ⟨tree, htree, hmembers⟩ := Option.bind_eq_some_iff.mp h
  simp only [ofBytes?, htree, Option.bind_eq_bind, Option.bind_some, hmembers]

theorem ofBytes?_flat (hoperation : ∀ m ∈ operation, m.1 = "operationId")
    (hregistration : IsRegistration registration)
    (hbody : IsFlat (operation ++ registration) body) :
    ofBytes? body = (do
      let operationId ← operation.optionalText? "operationId"
      let d ← Description.ofMembers? (maxDepth - 1) registration
      return ⟨operationId, d, .empty⟩) := by
  obtain ⟨found, hfound, halike⟩ := hbody
  have htop : IsTop operation registration found :=
    ⟨hoperation, hregistration.known, fun name _ ↦ halike.meant _ name⟩
  have hnone : found.named "registrationState" = [] :=
    Members.named_eq_nil (halike.forall_name (p := (· ≠ "registrationState"))
      (ne_registrationState hoperation hregistration.known))
  rw [ofBytes?_of_hasMembers hfound, htop.ofMembers?,
    Members.ask_eq_some_iff.mpr (.inl ⟨hnone, rfl⟩)]
  rfl

theorem ofTree?_record {record : Tree} {inner : Members} (hrecord : record.object? = some inner)
    (hinner : inner.Alike registration) (hregistration : IsRegistration registration) :
    Description.ofTree? record = Description.ofMembers? (maxDepth - 1) registration := by
  have hread : Description.ofTree? record = Description.ofMembers? (maxDepth - 2) inner := by
    cases record with
    | object raw =>
      change (keyed? raw).bind (Description.ofMembers? (maxDepth - 2)) = _
      rw [show keyed? raw = some inner from hrecord]
      rfl
    | _ => exact nomatch hrecord
  -- The record is read with one level less of room than a flat body.
  have hdeeper : ∀ m ∈ registration, m.2.depth ≤ maxDepth - 1 := fun m hm ↦
    Nat.le_trans (hregistration.nesting m hm) (by decide)
  rw [hread]
  refine Description.ofMembers?_congr fun name _ ↦ ?_
  rw [← Members.meant_eq_of_depth_le hregistration.nesting hdeeper]
  exact hinner.meant _ name

theorem ofBytes?_wrapped {said : Members} (hoperation : ∀ m ∈ operation, m.1 = "operationId")
    (hsaid : ∀ m ∈ said, m.1 ∈ Description.fields) (hregistration : IsRegistration registration)
    (hbody : IsWrapped (operation ++ said) registration body) :
    ofBytes? body = (do
      let operationId ← operation.optionalText? "operationId"
      let top ← Description.ofMembers? (maxDepth - 1) said
      let nested ← Description.ofMembers? (maxDepth - 1) registration
      return ⟨operationId, top, nested⟩) := by
  obtain ⟨found, rest, inner, record, hfound, hperm, halike, hrecord, hinner⟩ := hbody
  have hrest : ∀ m ∈ rest, m.1 ≠ "registrationState" :=
    halike.forall_name (p := (· ≠ "registrationState")) (ne_registrationState hoperation hsaid)
  have hnamed : found.named "registrationState" = [record] := by
    have hsame : (found.named "registrationState").Perm
        (Members.named "registrationState" (("registrationState", record) :: rest)) :=
      (hperm.filter _).map _
    rw [Members.named_cons, if_pos rfl, Members.named_eq_nil hrest] at hsame
    exact List.perm_singleton.mp hsame
  have htop : IsTop operation said found := by
    refine ⟨hoperation, hsaid, fun name hname ↦ ?_⟩
    have hbeside := (Members.Alike.of_perm hperm).meant (maxDepth - 1) name
    rw [Members.meant, Members.meant, Members.named_cons, if_neg hname.symm] at hbeside
    exact hbeside.trans (halike.meant _ name)
  rw [ofBytes?_of_hasMembers hfound, htop.ofMembers?, Members.ask_of_singleton hnamed,
    ← ofTree?_record hrecord hinner hregistration]

end Response

/-- The two shapes of a body give the same outcome or the same error, whether or not the
status in the record is repeated at the top level. -/
theorem outcome_flat_eq_wrapped {operation registration : Members} {flat wrapped : Bytes}
    (hoperation : ∀ m ∈ operation, m.1 = "operationId")
    (hregistration : IsRegistration registration)
    (hflat : IsFlat (operation ++ registration) flat)
    (hwrapped : IsWrapped operation registration wrapped ∨
      IsWrapped (operation ++ Description.statusOf registration) registration wrapped) :
    Outcome.ofBytes flat = Outcome.ofBytes wrapped := by
  -- Both kinds of wrapped body say no more at the top level than a status the record has too.
  have hread : ∃ said, IsWrapped (operation ++ said) registration wrapped ∧
      (∀ m ∈ said, m.1 ∈ Description.fields) ∧
      ∀ d, Description.ofMembers? (maxDepth - 1) registration = some d →
        ∃ status, Description.ofMembers? (maxDepth - 1) said =
          some { Description.empty with status } ∧ (status = none ∨ status = d.status) := by
    rcases hwrapped with hwrapped | hwrapped
    · exact ⟨[], by rwa [List.append_nil], by simp, fun d _ ↦ ⟨none, rfl, .inl rfl⟩⟩
    · exact ⟨_, hwrapped, fun m hm ↦ hregistration.known m (List.mem_filter.mp hm).1,
        fun d hd ↦ ⟨d.status, Description.ofMembers?_statusOf hd, .inr rfl⟩⟩
  obtain ⟨said, hsaidWrapped, hsaid, hstatus⟩ := hread
  rw [Outcome.ofBytes, Outcome.ofBytes, Response.ofBytes?_flat hoperation hregistration hflat,
    Response.ofBytes?_wrapped hoperation hsaid hregistration hsaidWrapped]
  cases operation.optionalText? "operationId" with
  | none => rfl
  | some operationId =>
    cases hd : Description.ofMembers? (maxDepth - 1) registration with
    | none =>
      cases Description.ofMembers? (maxDepth - 1) said <;> rfl
    | some d =>
      obtain ⟨status, htop, hsame⟩ := hstatus d hd
      rw [htop]
      exact Response.outcome_top_eq_nested operationId d hsame

def assignedOperation : Members := [("operationId", .string (plain "op-1"))]

def assignedRegistration : Members :=
  [("status", .string (plain "assigned")), ("deviceId", .null),
    ("errorCode", .array [.bool true, .string (plain "x")])]

/-- The same with an escape in the status. -/
def assignedRecord : Members :=
  [("deviceId", .null), ("status", .string (.unit 0x61 :: plain "ssigned")),
    ("errorCode", .array [.bool true, .string (plain "x")])]

def assignedFlat : Bytes := Bytes.ofText <|
  "\x7b\"operationId\":\"op-1\",\"status\":\"assigned\",\"deviceId\":null," ++
    "\"errorCode\":[true,\"x\"]\x7d"

def assignedWrapped : Bytes := Bytes.ofText <|
  "\x7b\"operationId\":\"op-1\",\"registrationState\":\x7b\"deviceId\":null," ++
    "\"status\":\"\\u0061ssigned\",\"errorCode\":[true,\"x\"]\x7d,\"status\":\"assigned\"\x7d"

theorem isFlat_assignedFlat :
    IsFlat (assignedOperation ++ assignedRegistration) assignedFlat := by
  refine ⟨assignedOperation ++ assignedRegistration, ?_, .refl _⟩
  decide +kernel

theorem assignedRecord_alike : assignedRecord.Alike assignedRegistration := by
  intro room
  have htext : text? (.unit 0x61 :: plain "ssigned") = some "assigned" := by
    decide +kernel
  simp only [Members.values, assignedRecord, assignedRegistration, List.map_cons, List.map_nil,
    Tree.value?, htext, text?_plain]
  exact .swap _ _ _

theorem isWrapped_assignedWrapped :
    IsWrapped (assignedOperation ++ Description.statusOf assignedRegistration)
      assignedRegistration assignedWrapped := by
  let record : Tree := .object [(plain "deviceId", .null),
    (plain "status", .string (.unit 0x61 :: plain "ssigned")),
    (plain "errorCode", .array [.bool true, .string (plain "x")])]
  refine ⟨assignedOperation ++ ("registrationState", record) ::
    Description.statusOf assignedRegistration, _, assignedRecord, record, ?_, List.perm_middle,
    .refl _, ?_, assignedRecord_alike⟩
  · decide +kernel
  · decide +kernel

theorem outcome_flat_eq_wrapped_assigned :
    (∀ m ∈ assignedOperation, m.1 = "operationId") ∧ IsRegistration assignedRegistration ∧
      IsFlat (assignedOperation ++ assignedRegistration) assignedFlat ∧
      IsWrapped (assignedOperation ++ Description.statusOf assignedRegistration)
        assignedRegistration assignedWrapped ∧
      Outcome.ofBytes assignedFlat = Outcome.ofBytes assignedWrapped ∧
      Outcome.ofBytes assignedWrapped = .ok ⟨.assigned, some "op-1", none, none, none, none,
        some "[true,\"x\"]", none, none, none, none⟩ := by
  have hoperation : ∀ m ∈ assignedOperation, m.1 = "operationId" := by
    simp [assignedOperation]
  have hregistration : IsRegistration assignedRegistration := by
    constructor
    · simp [assignedRegistration, Description.fields]
    · simp [assignedRegistration, Tree.depth, depths, maxDepth]
  have hread : Response.ofBytes? assignedWrapped = some ⟨some "op-1",
      { Description.empty with status := some "assigned" },
      { Description.empty with status := some "assigned", errorCode := some "[true,\"x\"]" }⟩ := by
    decide +kernel
  have houtcome : Outcome.ofBytes assignedWrapped = .ok ⟨.assigned, some "op-1", none, none,
      none, none, some "[true,\"x\"]", none, none, none, none⟩ := by
    have hstatus : Status.ofText? "assigned" = some .assigned := by decide +kernel
    rw [Outcome.ofBytes, hread]
    simp [Response.outcome, Description.empty, hstatus]
  exact ⟨hoperation, hregistration, isFlat_assignedFlat, isWrapped_assignedWrapped,
    outcome_flat_eq_wrapped hoperation hregistration isFlat_assignedFlat
      (.inr isWrapped_assignedWrapped), houtcome⟩

end Enrollment
