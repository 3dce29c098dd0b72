import Enrollment.Proofs.JsonNumber
import Enrollment.Proofs.NonceReading
namespace Enrollment

/-!
# Error codes as numbers and as texts

The service sends an error code as a number, older revisions as the text of its digits.
Wherever in a reply it stands, both are read as the digits, so the two replies come to
the same.
-/

open Json

namespace Json

/-- Where any value may stand the two are read alike. -/
def SameText (t t' : Tree) : Prop := ∀ room, t.anyText? room = t'.anyText? room

/-- The bytes are a string that stands for this text. -/
def WritesText (v : Bytes) (s : String) : Prop :=
  ∃ ps, Writes v (.string ps) ∧ text? ps = some s

theorem SameText.isSome_value? {t t' : Tree} (h : SameText t t') (room : Nat) :
    (t.value? room).isSome = (t'.value? room).isSome := by
  have hread := congrArg Option.isSome (h room)
  rwa [Tree.anyText?, Tree.anyText?, Option.isSome_map, Option.isSome_map] at hread

theorem anyText?_string {ps : List Piece} {s : String} (h : text? ps = some s) (room : Nat) :
    Tree.anyText? room (.string ps) = some (some s) := by
  rw [Tree.anyText?, Tree.value?, h]
  rfl

/-- A text in quotes, none of whose characters has to be escaped. -/
theorem writesText_quoted {s : String} (h : ∀ c ∈ s.toList, escape c = [c]) :
    WritesText (Bytes.ofText ("\"" ++ s ++ "\"")) s := by
  have hquote : Bytes.ofText ("\"" ++ s ++ "\"") = utf8 (Value.string s).write := by
    rw [Value.write, quote_of_plain h, ofText_eq_utf8]
    simp
  rw [hquote]
  exact ⟨written s, (readAs_string s).writes, text?_written s⟩

theorem Level.Says.has {l : Level} {name text : String} (h : l.Says name text) : l.Has name := by
  obtain ⟨t, ht, hshows⟩ := h
  refine ⟨t, ht, ?_⟩
  rintro rfl
  have hread := Tree.anyText?_eq_text_iff.mpr hshows
  rw [Tree.anyText?_eq_none_iff.mpr rfl] at hread
  exact nomatch hread

/-! ### Places under a name -/

/-- The place goes on from what stands under this name in a record with these fields,
written as an object or as an array. -/
inductive Place.Under (fields : List String) (name : String) (inner : Place) : Place → Prop
  | member {front back : Written} {key : List Piece} (hname : text? key = some name) :
      Under fields name inner (.member front key inner back)
  | item {front back : List Tree} (hname : fields[front.length]? = some name) :
      Under fields name inner (.item front inner back)

/-- Whether an object can be read depends on its names only. -/
theorem exists_keyed? {key : List Piece} {name : String} (hname : text? key = some name)
    (front back : Written) :
    ∃ sides : Option (Members × Members), ∀ t,
      keyed? (front ++ (key, t) :: back) = sides.map fun s ↦ s.1 ++ (name, t) :: s.2 := by
  by_cases hreadable : Written.Readable front ∧ Written.Readable back
  · refine ⟨some (front.map byName, back.map byName), fun t ↦ ?_⟩
    have hall : Written.Readable (front ++ (key, t) :: back) := by
      simpa [Written.Readable, or_imp, forall_and, hname] using hreadable
    rw [keyed?_eq, if_pos hall, List.map_append, List.map_cons, byName_of_text? hname]
    rfl
  · refine ⟨none, fun t ↦ ?_⟩
    have hnot : ¬ Written.Readable (front ++ (key, t) :: back) := by
      simpa [Written.Readable, or_imp, forall_and, hname] using hreadable
    rw [keyed?_eq, if_neg hnot]
    rfl

/-- Readers that do not tell two values apart under this name do not in an object. -/
theorem keyed?_bind {α : Type} {read : Members → Option α} {key : List Piece} {name : String}
    (hname : text? key = some name) {t t' : Tree}
    (hread : ∀ front back, read (front ++ (name, t) :: back) = read (front ++ (name, t') :: back))
    (front back : Written) :
    (keyed? (front ++ (key, t) :: back)).bind read =
      (keyed? (front ++ (key, t') :: back)).bind read := by
  obtain ⟨sides, hsides⟩ := exists_keyed? hname front back
  rw [hsides, hsides]
  cases sides with
  | none => rfl
  | some s => exact hread s.1 s.2

theorem exists_zip {fields : List String} {front : List Tree} {name : String}
    (hname : fields[front.length]? = some name) (back : List Tree) :
    ∃ sides : Members × Members, ∀ t,
      fields.zip (front ++ t :: back) = sides.1 ++ (name, t) :: sides.2 := by
  obtain ⟨hlt, hget⟩ := List.getElem?_eq_some_iff.mp hname
  have hfields : fields = fields.take front.length ++ name :: fields.drop (front.length + 1) := by
    rw [← hget, List.getElem_cons_drop, List.take_append_drop]
  have hlength : (fields.take front.length).length = front.length := by
    rw [List.length_take]
    omega
  refine ⟨((fields.take front.length).zip front, (fields.drop (front.length + 1)).zip back),
    fun t ↦ ?_⟩
  conv_lhs => rw [hfields]
  rw [List.zip_append hlength, List.zip_cons_cons]

/-- A record is read alike around the name, whatever stands there. -/
theorem Place.Under.exists_record? {fields : List String} {name : String} {inner place : Place}
    (h : Place.Under fields name inner place) :
    ∃ sides : Option (Members × Members), ∀ t,
      (place.fill t).record? fields = sides.map fun s ↦ s.1 ++ (name, inner.fill t) :: s.2 := by
  cases h with
  | member hname =>
    obtain ⟨sides, hsides⟩ := exists_keyed? hname _ _
    exact ⟨sides, fun t ↦ hsides (inner.fill t)⟩
  | @item front back hname =>
    obtain ⟨sides, hsides⟩ := exists_zip hname back
    by_cases hlength : front.length + (back.length + 1) = fields.length
    · refine ⟨some sides, fun t ↦ ?_⟩
      simp [Place.fill, Tree.record?, hlength, hsides]
    · refine ⟨none, fun t ↦ ?_⟩
      simp [Place.fill, Tree.record?, hlength]

theorem Place.Under.record?_bind {α : Type} {read : Members → Option α} {fields : List String}
    {name : String} {place : Place} (h : Place.Under fields name .here place) {t t' : Tree}
    (hread : ∀ front back, read (front ++ (name, t) :: back) = read (front ++ (name, t') :: back)) :
    ((place.fill t).record? fields).bind read = ((place.fill t').record? fields).bind read := by
  obtain ⟨sides, hsides⟩ := h.exists_record?
  rw [hsides, hsides]
  cases sides with
  | none => rfl
  | some s => exact hread s.1 s.2

/-- Readers that read two trees alike under this name do not tell them apart there. -/
theorem Members.ask_at {α : Type} {absent : α} {read : Tree → Option α} {name other : String}
    {t t' : Tree} (h : other = name → read t = read t') (front back : Members) :
    ask name absent read (front ++ (other, t) :: back) =
      ask name absent read (front ++ (other, t') :: back) := by
  by_cases hother : other = name
  · subst hother
    exact ask_replace (h rfl) front back
  · have hsame : named name (front ++ (other, t) :: back) =
        named name (front ++ (other, t') :: back) := by
      rw [named_append, named_append, named_cons, named_cons, if_neg hother, if_neg hother]
    rw [ask, ask, lookup?_eq_named, lookup?_eq_named, hsame]

theorem mem_named_at (name : String) (t : Tree) (front back : Members) :
    t ∈ Members.named name (front ++ (name, t) :: back) := by
  rw [Members.named_append, Members.named_cons, if_pos rfl]
  simp

end Json

/-! ### What is read does not tell the two apart -/

namespace Description

theorem part?_at {room : Nat} {name other : String} {t t' : Tree}
    (h : other = name → name = "errorCode" ∧ SameText t t') (front back : Members) :
    part? room name (front ++ (other, t) :: back) =
      part? room name (front ++ (other, t') :: back) := by
  rw [part?, part?]
  split
  · rw [Members.anyText?_eq_ask, Members.anyText?_eq_ask]
    exact Members.ask_at (fun hother ↦ (h hother).2 room) front back
  · next hname =>
    rw [Members.optionalText?_eq_ask, Members.optionalText?_eq_ask]
    exact Members.ask_at (fun hother ↦ absurd (h hother).1 hname) front back

theorem ofMembers?_code {t t' : Tree} (h : SameText t t') (room : Nat) (front back : Members) :
    ofMembers? room (front ++ ("errorCode", t) :: back) =
      ofMembers? room (front ++ ("errorCode", t') :: back) :=
  ofMembers?_eq_of_part? fun _ _ ↦ part?_at (fun hother ↦ ⟨hother.symm, h⟩) front back

theorem ofTree?_code {t t' : Tree} (h : SameText t t') {place : Place}
    (hplace : Place.Under fields "errorCode" .here place) :
    ofTree? (place.fill t) = ofTree? (place.fill t') := by
  have hread (u : Tree) : ofTree? (place.fill u) =
      ((place.fill u).record? fields).bind (ofMembers? (maxDepth - 2)) := by
    cases hplace <;> rfl
  rw [hread, hread]
  exact hplace.record?_bind (ofMembers?_code h (maxDepth - 2))

end Description

namespace Response

/-- The place of an error code in a body: at its top level, or inside its record. -/
inductive CodeAt : Bool → Place → Prop
  | top {front back : Written} {key : List Piece} (hname : text? key = some "errorCode") :
      CodeAt false (.member front key .here back)
  | inside {front back : Written} {key : List Piece} {place : Place}
      (hname : text? key = some "registrationState")
      (h : Place.Under Description.fields "errorCode" .here place) :
      CodeAt true (.member front key place back)

theorem ofMembers?_at {name : String} {t t' : Tree}
    (h : name = "errorCode" ∧ SameText t t' ∨
      name = "registrationState" ∧ Description.ofTree? t = Description.ofTree? t')
    (front back : Members) :
    ofMembers? (front ++ (name, t) :: back) = ofMembers? (front ++ (name, t') :: back) := by
  have hid : Members.optionalText? "operationId" (front ++ (name, t) :: back) =
      Members.optionalText? "operationId" (front ++ (name, t') :: back) := by
    rw [Members.optionalText?_eq_ask, Members.optionalText?_eq_ask]
    refine Members.ask_at (fun hname ↦ ?_) front back
    rcases h with ⟨rfl, -⟩ | ⟨rfl, -⟩ <;> exact absurd hname (by decide)
  have htop : Description.ofMembers? (maxDepth - 1) (front ++ (name, t) :: back) =
      Description.ofMembers? (maxDepth - 1) (front ++ (name, t') :: back) := by
    refine Description.ofMembers?_eq_of_part? fun field hfield ↦ ?_
    refine Description.part?_at (fun hname ↦ ?_) front back
    rcases h with ⟨rfl, hsame⟩ | ⟨rfl, -⟩
    · exact ⟨hname.symm, hsame⟩
    · exact absurd (hname ▸ hfield) (by decide)
  have hnested : Members.ask "registrationState" .empty Description.ofTree?
      (front ++ (name, t) :: back) = Members.ask "registrationState" .empty Description.ofTree?
      (front ++ (name, t') :: back) := by
    refine Members.ask_at (fun hname ↦ ?_) front back
    rcases h with ⟨rfl, -⟩ | ⟨-, hread⟩
    · exact absurd hname (by decide)
    · exact hread
  have hfits : (name = "registrationState" ∨ Fits t) ↔ (name = "registrationState" ∨ Fits t') := by
    rcases h with ⟨rfl, hsame⟩ | ⟨rfl, -⟩
    · rw [Fits, Fits, hsame.isSome_value?]
    · simp
  have hall : ((front ++ (name, t) :: back).all fun m ↦
        m.1 == "registrationState" || (m.2.value? (maxDepth - 1)).isSome) =
      (front ++ (name, t') :: back).all fun m ↦
        m.1 == "registrationState" || (m.2.value? (maxDepth - 1)).isSome := by
    rw [Bool.eq_iff_iff, all_fit_iff, all_fit_iff]
    simp only [List.forall_mem_append, List.forall_mem_cons, hfits]
  simp only [ofMembers?_eq, hid, htop, hnested, hall]

/-- A body is read alike with either of two trees at the place of an error code. -/
theorem CodeAt.object?_bind {inside : Bool} {place : Place} (h : CodeAt inside place) {t t' : Tree}
    (hsame : SameText t t') :
    (place.fill t).object?.bind ofMembers? = (place.fill t').object?.bind ofMembers? := by
  cases h with
  | top hname => exact keyed?_bind hname (ofMembers?_at (.inl ⟨rfl, hsame⟩)) _ _
  | inside hname hplace =>
    have hrecord := Description.ofTree?_code hsame hplace
    exact keyed?_bind hname (ofMembers?_at (.inr ⟨rfl, hrecord⟩)) _ _

end Response

namespace NonceReply

/-- The place of an error code in a reply, which may be an array of all its fields. -/
def CodeAt (place : Place) : Prop := Place.Under fields "errorCode" .here place

theorem ofMembers?_code {t t' : Tree} (h : SameText t t') (front back : Members) :
    ofMembers? (front ++ ("errorCode", t) :: back) =
      ofMembers? (front ++ ("errorCode", t') :: back) := by
  have htext (name : String) (hname : name ≠ "errorCode") :
      Members.optionalText? name (front ++ ("errorCode", t) :: back) =
        Members.optionalText? name (front ++ ("errorCode", t') :: back) := by
    rw [Members.optionalText?_eq_ask, Members.optionalText?_eq_ask]
    exact Members.ask_at (fun hother ↦ absurd hother.symm hname) front back
  have hcode : Members.anyText? (maxDepth - 1) "errorCode" (front ++ ("errorCode", t) :: back) =
      Members.anyText? (maxDepth - 1) "errorCode" (front ++ ("errorCode", t') :: back) := by
    rw [Members.anyText?_eq_ask, Members.anyText?_eq_ask]
    exact Members.ask_at (fun _ ↦ h _) front back
  have htpm : tpmKey? (front ++ ("errorCode", t) :: back) =
      tpmKey? (front ++ ("errorCode", t') :: back) := by
    rw [tpmKey?_eq_ask, tpmKey?_eq_ask]
    exact Members.ask_at (fun hother ↦ absurd hother (by decide)) front back
  simp (disch := decide) only [ofMembers?_eq, htext, htpm, hcode]

end NonceReply

/-! ### What is read is the digits -/

namespace Response

/-- The level of a body that an error code stands at. -/
def codeLevel (inside : Bool) (top nested : Level) : Level := if inside then nested else top

/-- What becomes of a body that decodes and says this at the place of an error code, by
its status: an outcome takes the code inside first, a rejection the one at the top level. -/
structure CodeTold (inside : Bool) (digits : String) (top nested : Level)
    (result : Except Error Outcome) : Prop where
  settled : ∀ text status, FirstSays [(top, "status"), (nested, "status")] text →
    SameWord text status.name → ∃ o, result = .ok o ∧ o.status = status
  rejected : ¬ top.Has "status" → ¬ nested.Has "status" →
    ∃ code message, result = .error (.hub (some code) message)
  ok_code : ∀ o, result = .ok o → inside = true ∨ ¬ nested.Has "errorCode" →
    o.errorCode = some digits
  hub_code : ∀ code message, result = .error (.hub code message) →
    inside = false ∨ ¬ top.Has "errorCode" → code = some digits

/-- What stands at the place of an error code is what its level says. -/
theorem CodeAt.said {inside : Bool} {place : Place} (h : CodeAt inside place) {t : Tree}
    {digits : String} (ht : ∀ room, t.Shows room digits) {body : Bytes} {top nested : Members}
    (hbody : Tree.ofBytes? body = some (place.fill t)) (hdecodes : Decodes body top nested) :
    (codeLevel inside ⟨top, maxDepth - 1⟩ ⟨nested, maxDepth - 2⟩).Says "errorCode" digits := by
  have htop : (place.fill t).object? = some top := by
    have hmembers := hdecodes.members
    rwa [HasMembers, hbody] at hmembers
  have hmem {front back : Written} {key : List Piece} {name : String} {u : Tree}
      (hname : text? key = some name) (hkeyed : keyed? (front ++ (key, u) :: back) = some top) :
      u ∈ top.named name := by
    obtain ⟨sides, hsides⟩ := exists_keyed? hname front back
    rw [hsides] at hkeyed
    obtain ⟨s, -, rfl⟩ := Option.map_eq_some_iff.mp hkeyed
    exact mem_named_at name u s.1 s.2
  cases h with
  | top hname => exact ⟨t, hmem hname htop, ht _⟩
  | @inside front back key place hname hplace =>
    have hrecord := hmem hname htop
    obtain ⟨sides, hsides⟩ := hplace.exists_record?
    have hnested : (place.fill t).record? Description.fields = some nested := by
      cases hdecodes.record with
      | absent hnone => simp [hnone] at hrecord
      | null hnull =>
        rw [hnull, List.mem_singleton] at hrecord
        cases hplace <;> exact nomatch hrecord
      | record hsole hread =>
        rw [hsole, List.mem_singleton] at hrecord
        rw [hrecord, hread]
    rw [hsides] at hnested
    obtain ⟨s, -, rfl⟩ := Option.map_eq_some_iff.mp hnested
    exact ⟨t, mem_named_at "errorCode" t s.1 s.2, ht _⟩

theorem IsReadFrom.codeTold {r : Response} {top nested : Level} (h : r.IsReadFrom top nested)
    {inside : Bool} {digits : String}
    (hsaid : (codeLevel inside top nested).Says "errorCode" digits) :
    CodeTold inside digits top nested r.outcome where
  settled text status hsaid hword := (h.tells.ok_iff status).mpr ⟨text, hsaid, hword⟩
  rejected htop hnested := by
    have hcode : top.Has "errorCode" ∨ nested.Has "errorCode" := by
      cases inside with
      | false => exact .inl hsaid.has
      | true => exact .inr hsaid.has
    obtain ⟨code, message, hresult⟩ := h.tells.hub_iff.mpr ⟨htop, hnested, hcode⟩
    obtain ⟨-, hsome, -⟩ := outcome_eq_hub_iff.mp hresult
    obtain ⟨code, rfl⟩ := Option.isSome_iff_exists.mp hsome
    exact ⟨code, message, hresult⟩
  ok_code o hresult hfirst := by
    have hsource : (Outcome.errorCode, [(nested, "errorCode"), (top, "errorCode")]) ∈
        Outcome.sources top nested := by
      simp [Outcome.sources]
    have hread := h.tells.told o hresult _ hsource
    refine (hread.eq_some_iff digits).mpr ?_
    cases inside with
    | true => exact .here hsaid
    | false => exact .later (hfirst.resolve_left (by decide)) (.here hsaid)
  hub_code code message hresult hfirst := by
    obtain ⟨hread, -⟩ := h.tells.rejected code message hresult
    refine (hread.eq_some_iff digits).mpr ?_
    cases inside with
    | false => exact .here hsaid
    | true => exact .later (hfirst.resolve_left (by decide)) (.here hsaid)

theorem CodeAt.told {inside : Bool} {place : Place} (h : CodeAt inside place) {t : Tree}
    {digits : String} (ht : ∀ room, t.Shows room digits) {body : Bytes}
    (hbody : Tree.ofBytes? body = some (place.fill t)) {top nested : Members}
    (hdecodes : Decodes body top nested) :
    CodeTold inside digits ⟨top, maxDepth - 1⟩ ⟨nested, maxDepth - 2⟩ (Outcome.ofBytes body) := by
  obtain ⟨r, hr, hread⟩ := hdecodes.read
  rw [Outcome.ofBytes, hr]
  exact hread.codeTold (h.said ht hbody hdecodes)

theorem CodeAt.outcome_eq {inside : Bool} {place : Place} (h : CodeAt inside place) {t t' : Tree}
    (hsame : SameText t t') {body body' : Bytes}
    (hbody : Tree.ofBytes? body = some (place.fill t))
    (hbody' : Tree.ofBytes? body' = some (place.fill t')) :
    Outcome.ofBytes body = Outcome.ofBytes body' := by
  have hread {b : Bytes} {u : Tree} (hu : Tree.ofBytes? b = some u) :
      ofBytes? b = u.object?.bind ofMembers? := by
    rw [ofBytes?, hu]
    rfl
  rw [Outcome.ofBytes, Outcome.ofBytes, hread hbody, hread hbody', h.object?_bind hsame]

end Response

namespace NonceReply

theorem CodeAt.said {place : Place} (h : CodeAt place) {t : Tree} {digits : String}
    (ht : ∀ room, t.Shows room digits) {body : Bytes} {top inner : Members}
    (hbody : Tree.ofBytes? body = some (place.fill t)) (hdecodes : Decodes body top inner) :
    Level.Says ⟨top, maxDepth - 1⟩ "errorCode" digits := by
  have hmembers := hdecodes.members
  rw [hbody, Option.bind_some] at hmembers
  obtain ⟨sides, hsides⟩ := Place.Under.exists_record? h
  rw [hsides] at hmembers
  obtain ⟨s, -, rfl⟩ := Option.map_eq_some_iff.mp hmembers
  exact ⟨t, mem_named_at "errorCode" t s.1 s.2, ht _⟩

/-- A reply that carries an error code hands out its key or is a rejection with that code. -/
theorem IsReadFrom.codeTold {r : NonceReply} {top inner : Level} (h : r.IsReadFrom top inner)
    {digits : String} (hsaid : top.Says "errorCode" digits) :
    (∃ key, r.key = .ok key) ∨ ∃ message, r.key = .error (.hub (some digits) message) := by
  have hcode : r.errorCode = some digits := (h.errorCode.eq_some_iff digits).mpr (.here hsaid)
  cases hfound : r.foundKey with
  | some key => exact .inl ⟨key, key_eq_ok_iff.mpr hfound⟩
  | none =>
    right
    rw [key_of_none hfound, hcode]
    exact ⟨_, rfl⟩

theorem CodeAt.told {place : Place} (h : CodeAt place) {t : Tree} {digits : String}
    (ht : ∀ room, t.Shows room digits) {body : Bytes}
    (hbody : Tree.ofBytes? body = some (place.fill t)) {top inner : Members}
    (hdecodes : Decodes body top inner) :
    (∃ key, authenticationKey body = .ok key) ∨
      ∃ message, authenticationKey body = .error (.hub (some digits) message) := by
  obtain ⟨r, hr, hread⟩ := hdecodes.read
  rw [authenticationKey, hr]
  exact hread.codeTold (h.said ht hbody hdecodes)

theorem CodeAt.key_eq {place : Place} (h : CodeAt place) {t t' : Tree} (hsame : SameText t t')
    {body body' : Bytes} (hbody : Tree.ofBytes? body = some (place.fill t))
    (hbody' : Tree.ofBytes? body' = some (place.fill t')) :
    authenticationKey body = authenticationKey body' := by
  rw [authenticationKey, authenticationKey, ofBytes?_eq, ofBytes?_eq, hbody, hbody',
    Option.bind_some, Option.bind_some, Place.Under.record?_bind h (ofMembers?_code hsame)]

end NonceReply

/-- A reply with a whole number of sixty-four bits for its error code comes to the same as
with the text of its decimal digits, at whichever place of whatever body they stand. -/
theorem error_code_number_or_text {n : Int} (hlow : -(Nat.pow 2 63 : Int) ≤ n)
    (hhigh : n < (Nat.pow 2 64 : Int)) :
    (∀ {body : Bytes} {place : Place} {t : Tree}, Tree.ofBytes? body = some (place.fill t) →
      ∃ before v after, body = before ++ v ++ after ∧ Writes v t ∧ Frames before after place) ∧
    WritesText (Bytes.ofText ("\"" ++ toString n ++ "\"")) (toString n) ∧
    ∀ {before after : Bytes} {place : Place} {v : Bytes}, Frames before after place →
      WritesText v (toString n) →
      (∀ inside, Response.CodeAt inside place →
        Outcome.ofBytes (before ++ Bytes.ofText (toString n) ++ after) =
            Outcome.ofBytes (before ++ v ++ after) ∧
          ∀ w ∈ [Bytes.ofText (toString n), v], ∀ top nested,
            Response.Decodes (before ++ w ++ after) top nested →
              Response.CodeTold inside (toString n) ⟨top, maxDepth - 1⟩ ⟨nested, maxDepth - 2⟩
                (Outcome.ofBytes (before ++ w ++ after))) ∧
      (NonceReply.CodeAt place →
        authenticationKey (before ++ Bytes.ofText (toString n) ++ after) =
            authenticationKey (before ++ v ++ after) ∧
          ∀ w ∈ [Bytes.ofText (toString n), v], ∀ top inner,
            NonceReply.Decodes (before ++ w ++ after) top inner →
              (∃ key, authenticationKey (before ++ w ++ after) = .ok key) ∨
                ∃ message, authenticationKey (before ++ w ++ after) =
                  .error (.hub (some (toString n)) message)) := by
  refine ⟨exists_frames, writesText_quoted fun c hc ↦ escape_of_mem_toString hc, ?_⟩
  rintro before after place v hframes ⟨ps, hps, htext⟩
  have hnumber := anyText?_wholeLiteral hlow hhigh
  have hstring := anyText?_string htext
  have hsame : SameText (.number (wholeLiteral n)) (.string ps) := fun room ↦
    (hnumber room).trans (hstring room).symm
  have hnumeric := hframes _ _ (writes_int n)
  have htextual := hframes _ _ hps
  have hshown (room : Nat) := Tree.anyText?_eq_text_iff.mp (hnumber room)
  have hshown' (room : Nat) := Tree.anyText?_eq_text_iff.mp (hstring room)
  simp only [List.forall_mem_cons]
  constructor
  · intro inside hcode
    exact ⟨hcode.outcome_eq hsame hnumeric htextual, fun _ _ ↦ hcode.told hshown hnumeric,
      fun _ _ ↦ hcode.told hshown' htextual, List.forall_mem_nil _⟩
  · intro hcode
    exact ⟨hcode.key_eq hsame hnumeric htextual, fun _ _ ↦ hcode.told hshown hnumeric,
      fun _ _ ↦ hcode.told hshown' htextual, List.forall_mem_nil _⟩

/-! ### The greatest code, alone in a reply -/

def loneBefore : Bytes := Bytes.ofText "\x7b\"errorCode\":"

def loneAfter : Bytes := Bytes.ofText "\x7d"

def lonePlace : Place := .member [] (written "errorCode") .here []

def greatestNumber : Bytes := Bytes.ofText "\x7b\"errorCode\":18446744073709551615\x7d"

def greatestText : Bytes := Bytes.ofText "\x7b\"errorCode\":\"18446744073709551615\"\x7d"

theorem frames_lone : Frames loneBefore loneAfter lonePlace := by
  intro v t hv
  have hmember : WritesMember (utf8 (quote "errorCode") ++ [0x3a] ++ v) (written "errorCode", t) :=
    ⟨_, v, rfl, opens_quote "errorCode", hv⟩
  have hwrites := (Sequence.last hmember blanks_nil).writes_object blanks_nil
  refine ofBytes?_eq_some_iff.mpr ⟨_, [], ?_, hwrites, blanks_nil⟩
  have hbefore : loneBefore = 0x7b :: (utf8 (quote "errorCode") ++ [0x3a]) := by decide +kernel
  have hafter : loneAfter = [0x7d] := by decide +kernel
  simp [hbefore, hafter]

theorem error_code_number_or_text_greatest :
    Frames loneBefore loneAfter lonePlace ∧ Response.CodeAt false lonePlace ∧
      NonceReply.CodeAt lonePlace ∧
      Outcome.ofBytes greatestNumber = Outcome.ofBytes greatestText ∧
      Outcome.ofBytes greatestText =
        .error (.hub (some "18446744073709551615") "registration rejected") ∧
      authenticationKey greatestNumber = authenticationKey greatestText ∧
      authenticationKey greatestText =
        .error (.hub (some "18446744073709551615") "nonce request rejected") := by
  have htop : Response.CodeAt false lonePlace := .top (text?_written "errorCode")
  have hnonce : NonceReply.CodeAt lonePlace := .member (text?_written "errorCode")
  obtain ⟨-, htext, hsame⟩ := error_code_number_or_text
    (n := 18446744073709551615) (by decide) (by decide)
  obtain ⟨houtcome, hkey⟩ := hsame frames_lone htext
  have hnumber : loneBefore ++ Bytes.ofText (toString (18446744073709551615 : Int)) ++ loneAfter =
      greatestNumber := by
    decide +kernel
  have hquoted : loneBefore ++
      Bytes.ofText ("\"" ++ toString (18446744073709551615 : Int) ++ "\"") ++ loneAfter =
        greatestText := by
    decide +kernel
  rw [hnumber, hquoted] at houtcome hkey
  have hresponse : Response.ofBytes? greatestText = some ⟨none,
      { Description.empty with errorCode := some "18446744073709551615" }, .empty⟩ := by
    decide +kernel
  have hreply : NonceReply.ofBytes? greatestText =
      some ⟨none, none, some "18446744073709551615", none, none⟩ := by
    decide +kernel
  refine ⟨frames_lone, htop, hnonce, (houtcome false htop).1, ?_, (hkey hnonce).1, ?_⟩
  · rw [Outcome.ofBytes, hresponse]
    rfl
  · rw [authenticationKey, hreply]
    rfl

/-! ### Replies that tell something else -/

def shadowedPlace : Place :=
  .member [(plain "status", .string (plain "failed"))] (plain "errorCode") .here
    [(plain "registrationState", .object [(plain "errorCode", .string (plain "7"))])]

def shadowedBody : Bytes := Bytes.ofText <|
  "\x7b\"status\":\"failed\",\"errorCode\":5,\"registrationState\":\x7b\"errorCode\":\"7\"\x7d\x7d"

def keptPlace : Place :=
  .member [(plain "authenticationKey", .string (plain "a2V5"))] (plain "errorCode") .here []

def keptBody : Bytes := Bytes.ofText "\x7b\"authenticationKey\":\"a2V5\",\"errorCode\":5\x7d"

/-- An outcome tells the code of the record where both levels have one, and a reply that
carries a key is no rejection. -/
theorem error_code_not_told :
    Tree.ofBytes? shadowedBody = some (shadowedPlace.fill (.number (wholeLiteral 5))) ∧
      Response.CodeAt false shadowedPlace ∧
      Outcome.ofBytes shadowedBody = .ok ⟨.failed, none, none, none, none, none, some "7", none,
        none, none, none⟩ ∧
      toString (5 : Int) ≠ "7" ∧
      Tree.ofBytes? keptBody = some (keptPlace.fill (.number (wholeLiteral 5))) ∧
      NonceReply.CodeAt keptPlace ∧ authenticationKey keptBody = .ok "a2V5" := by
  have hresponse : Response.ofBytes? shadowedBody = some ⟨none,
      { Description.empty with status := some "failed", errorCode := some "5" },
      { Description.empty with errorCode := some "7" }⟩ := by
    decide +kernel
  have hstatus : Status.ofText? "failed" = some .failed := by decide +kernel
  have hreply : NonceReply.ofBytes? keptBody = some ⟨some "a2V5", none, some "5", none, none⟩ := by
    decide +kernel
  refine ⟨by decide +kernel, .top (text?_plain "errorCode"), ?_, by decide +kernel,
    by decide +kernel, .member (text?_plain "errorCode"), ?_⟩
  · rw [Outcome.ofBytes, hresponse]
    simp [Response.outcome, Description.empty, hstatus]
  · rw [authenticationKey, hreply]
    exact NonceReply.key_eq_ok_iff.mpr rfl

end Enrollment
