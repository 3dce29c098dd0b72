import Mathlib.Logic.Relation
import Enrollment.Proofs.NonceReply
import Enrollment.Proofs.ResponseShape
import Enrollment.Proofs.Trace
namespace Enrollment

/-!
# How a reply is presented

A reply is read by the names of its members, and so is the record inside it.  It
reads the same in any order of its members, with or without members nobody asks
for, and with or without known members that say nothing; a known name given twice
makes it unreadable, whatever else it says.
-/

open Json

namespace Json

/-! ### Changes in the presentation of an object -/

/-- The members of an object as they are written, each name in pieces. -/
abbrev Written := List (List Piece × Tree)

namespace Written

def Has (name : String) (members : Written) : Prop :=
  ∃ m ∈ members, text? m.1 = some name

/-- One change in the presentation of an object that is asked for some names: its
members are put in another order, or it gets a member nobody asks for, or one that
was missing and says nothing. -/
inductive Change (known : List String) (Fits : Tree → Prop) : Written → Written → Prop
  | order {members members' : Written} (h : members.Perm members') :
      Change known Fits members members'
  | unknown {members : Written} {key : List Piece} {name : String} {t : Tree}
      (hname : text? key = some name) (hunknown : name ∉ known) (hfits : Fits t) :
      Change known Fits members ((key, t) :: members)
  | absent {members : Written} {key : List Piece} {name : String}
      (hname : text? key = some name) (habsent : ¬ members.Has name) :
      Change known Fits members ((key, .null) :: members)

/-- A name that is asked for stands in the object a second time. -/
def Repeats (known : List String) (members : Written) : Prop :=
  ∃ name ∈ known, ∃ before key t after, members = before ++ (key, t) :: after ∧
    text? key = some name ∧ Has name (before ++ after)

end Written

/-- The names a reply is asked for, the name of the record inside it, and the names
that the record is asked for. -/
structure Layout where
  known : List String
  record : String
  inner : List String

namespace Layout

/-- One change in the presentation of a reply, at its top level or in its record,
where a member nobody asks for is not even looked at. -/
inductive Change (l : Layout) (Fits : Tree → Prop) : Written → Written → Prop
  | top {members members' : Written} (h : Written.Change l.known Fits members members') :
      Change l Fits members members'
  | inside {before after inner inner' : Written} {key : List Piece}
      (hname : text? key = some l.record)
      (h : Written.Change l.inner (fun _ ↦ True) inner inner') :
      Change l Fits (before ++ (key, .object inner) :: after)
        (before ++ (key, .object inner') :: after)

/-- The same reply, presented in another way. -/
def Presents (l : Layout) (Fits : Tree → Prop) : Written → Written → Prop :=
  Relation.EqvGen (l.Change Fits)

namespace Presents

variable {l : Layout} {Fits : Tree → Prop} {members members' members'' : Written}

theorem trans (h : l.Presents Fits members members') (h' : l.Presents Fits members' members'') :
    l.Presents Fits members members'' :=
  Relation.EqvGen.trans _ _ _ h h'

theorem symm (h : l.Presents Fits members members') : l.Presents Fits members' members :=
  Relation.EqvGen.symm _ _ h

theorem of_perm (h : members.Perm members') : l.Presents Fits members members' :=
  .rel _ _ (.top (.order h))

theorem unknown {key : List Piece} {name : String} {t : Tree} (hname : text? key = some name)
    (hunknown : name ∉ l.known) (hfits : Fits t) : l.Presents Fits members ((key, t) :: members) :=
  .rel _ _ (.top (.unknown hname hunknown hfits))

theorem absent {key : List Piece} {name : String} (hname : text? key = some name)
    (habsent : ¬ members.Has name) : l.Presents Fits members ((key, .null) :: members) :=
  .rel _ _ (.top (.absent hname habsent))

end Presents

/-- A known name stands twice in a reply, or in its record. -/
def Repeats (l : Layout) (members : Written) : Prop :=
  Written.Repeats l.known members ∨
    ∃ key inner, (key, .object inner) ∈ members ∧ text? key = some l.record ∧
      Written.Repeats l.inner inner

end Layout

/-! ### Names and what stands under them -/

/-- A member by its name, where the name is a text. -/
def byName (m : List Piece × Tree) : String × Tree := ((text? m.1).getD "", m.2)

theorem byName_of_text? {key : List Piece} {name : String} (h : text? key = some name)
    (t : Tree) : byName (key, t) = (name, t) := by
  simp [byName, h]

/-- Every name is a text. -/
def Written.Readable (members : Written) : Prop := ∀ m ∈ members, (text? m.1).isSome

instance (members : Written) : Decidable members.Readable :=
  inferInstanceAs (Decidable (∀ m ∈ members, _))

theorem keyed?_eq (members : Written) :
    keyed? members = if members.Readable then some (members.map byName) else none := by
  induction members with
  | nil => rfl
  | cons m members ih =>
    rw [keyed?] at ih
    rw [keyed?, List.mapM_cons, ih]
    cases hname : text? m.1 with
    | none => simp [Written.Readable, hname]
    | some name =>
      have hall : Written.Readable (m :: members) ↔ Written.Readable members := by
        rw [Written.Readable, List.forall_mem_cons, hname]
        exact and_iff_right rfl
      simp only [hall]
      split <;> simp [byName, hname]

namespace Members

variable {members members' : Members} {name : String}

theorem named_append (name : String) (members members' : Members) :
    named name (members ++ members') = named name members ++ named name members' := by
  simp [named]

theorem lookup?_eq_of_perm (h : (members.named name).Perm (members'.named name)) :
    members.lookup? name = members'.lookup? name := by
  rw [lookup?_eq_named, lookup?_eq_named]
  match members.named name, members'.named name, h with
  | [], _, h => rw [h.nil_eq]
  | [t], _, h => rw [List.singleton_perm.mp h]
  | _ :: _ :: _, found', h =>
    match found', h.length_eq with
    | _ :: _ :: _, _ => rfl

/-- Asked for this name the two are the same: it stands there alike, or it is
missing in the one and says nothing in the other. -/
def SameAt (name : String) (members members' : Members) : Prop :=
  (members.named name).Perm (members'.named name) ∨
    members.named name = [] ∧ members'.named name = [.null]

theorem SameAt.ask {α : Type} {absent : α} {read : Tree → Option α}
    (hnull : read .null = some absent) (h : SameAt name members members') :
    members.ask name absent read = members'.ask name absent read := by
  rcases h with hperm | ⟨hnone, hsome⟩
  · rw [Members.ask, Members.ask, lookup?_eq_of_perm hperm]
  · rw [Members.ask, Members.ask, lookup?_eq_named, lookup?_eq_named, hnone, hsome]
    exact hnull.symm

/-- A reader that reads two trees alike does not tell them apart under their name. -/
theorem ask_replace {α : Type} {absent : α} {read : Tree → Option α} {t t' : Tree}
    (h : read t = read t') (before after : Members) :
    ask name absent read (before ++ (name, t) :: after) =
      ask name absent read (before ++ (name, t') :: after) := by
  have hread (u : Tree) (a : α) :
      ask name absent read (before ++ (name, u) :: after) = some a ↔
        named name before = [] ∧ named name after = [] ∧ read u = some a := by
    rw [ask_eq_some_iff, named_append, named_cons, if_pos rfl]
    simp [List.append_eq_singleton_iff, and_assoc]
  refine Option.ext fun a ↦ ?_
  rw [hread, hread, h]

/-- One unreadable tree under a name makes the name unreadable. -/
theorem ask_eq_none {α : Type} {absent : α} {read : Tree → Option α} {t : Tree}
    (hmem : t ∈ members.named name) (h : read t = none) : members.ask name absent read = none := by
  refine Option.not_isSome_iff_eq_none.mp fun hread ↦ ?_
  have ht := (isSome_ask_iff.mp hread).2 t hmem
  rw [h] at ht
  exact nomatch ht

end Members

/-! ### What a change leaves as it was -/

namespace Written

variable {known : List String} {Fits : Tree → Prop} {members members' : Written}

/-- Whatever holds of the members that may be added holds of all members before the
change if it does after it. -/
theorem Change.forall_iff {p : List Piece × Tree → Prop} (hnull : Fits .null)
    (hp : ∀ {key name t}, text? key = some name → Fits t → p (key, t))
    (h : Change known Fits members members') :
    (∀ m ∈ members, p m) ↔ ∀ m ∈ members', p m := by
  cases h with
  | order h => simp only [h.mem_iff]
  | unknown hname hunknown hfits =>
    rw [List.forall_mem_cons, and_iff_right (hp hname hfits)]
  | absent hname habsent =>
    rw [List.forall_mem_cons, and_iff_right (hp hname hnull)]

theorem Change.readable_iff (hnull : Fits .null) (h : Change known Fits members members') :
    members.Readable ↔ members'.Readable :=
  h.forall_iff hnull fun hname _ ↦ Option.isSome_of_eq_some hname

theorem named_eq_nil_of_absent {name : String} (hreadable : members.Readable)
    (h : ¬ members.Has name) : Members.named name (members.map byName) = [] := by
  refine Members.named_eq_nil fun m hm heq ↦ h ?_
  obtain ⟨written, hwritten, rfl⟩ := List.mem_map.mp hm
  obtain ⟨found, hfound⟩ := Option.isSome_iff_exists.mp (hreadable written hwritten)
  rw [byName_of_text? hfound] at heq
  exact ⟨written, hwritten, heq ▸ hfound⟩

theorem Change.sameAt (hreadable : members.Readable) (h : Change known Fits members members')
    {name : String} (hknown : name ∈ known) :
    Members.SameAt name (members.map byName) (members'.map byName) := by
  cases h with
  | order h => exact .inl (((h.map byName).filter _).map _)
  | @unknown key other t hname hunknown hfits =>
    left
    have hother : other ≠ name := by
      rintro rfl
      exact hunknown hknown
    rw [List.map_cons, byName_of_text? hname, Members.named_cons, if_neg hother]
  | @absent key other hname habsent =>
    rw [List.map_cons, byName_of_text? hname]
    by_cases hother : other = name
    · right
      subst hother
      have hnone := named_eq_nil_of_absent hreadable habsent
      rw [Members.named_cons, if_pos rfl, hnone]
      exact ⟨rfl, rfl⟩
    · left
      rw [Members.named_cons, if_neg hother]

/-- A name that is repeated stands there at least twice. -/
theorem Repeats.two_le (h : Repeats known members) :
    ∃ name ∈ known, 2 ≤ (Members.named name (members.map byName)).length := by
  obtain ⟨name, hknown, before, key, t, after, rfl, hname, m, hm, hother⟩ := h
  refine ⟨name, hknown, ?_⟩
  have hmem : byName m ∈ (before ++ after).map byName := List.mem_map_of_mem hm
  have hpos : 0 < (Members.named name ((before ++ after).map byName)).length := by
    rw [Members.named, List.length_map, List.length_pos_iff_exists_mem]
    exact ⟨byName m, List.mem_filter.mpr ⟨hmem, by simp [byName, hother]⟩⟩
  rw [List.map_append, Members.named_append, List.length_append] at hpos
  simp only [List.map_append, List.map_cons, byName_of_text? hname, Members.named_append,
    Members.named_cons, if_true, List.length_append, List.length_cons]
  omega

end Written

/-! ### Readers of a reply -/

/-- What the members of an object are read as. -/
def readObject {α : Type} (read : Members → Option α) (members : Written) : Option α :=
  (keyed? members).bind read

theorem readObject_congr {α : Type} {read : Members → Option α} {members members' : Written}
    (hiff : members.Readable ↔ members'.Readable)
    (h : members.Readable → read (members.map byName) = read (members'.map byName)) :
    readObject read members = readObject read members' := by
  rw [readObject, readObject, keyed?_eq, keyed?_eq]
  by_cases hreadable : members.Readable
  · rw [if_pos hreadable, if_pos (hiff.mp hreadable)]
    exact h hreadable
  · rw [if_neg hreadable, if_neg (mt hiff.mpr hreadable)]

theorem readObject_eq_none {α : Type} {read : Members → Option α} {members : Written}
    (h : read (members.map byName) = none) : readObject read members = none := by
  rw [readObject, keyed?_eq]
  split
  · exact h
  · rfl

/-- A reader of replies in this layout looks at nothing but what stands under the
names it asks for, and at whether all other members fit; it refuses a name that
stands there twice and a record it cannot read. -/
structure Layout.Reads (l : Layout) (Fits : Tree → Prop) {α β : Type}
    (read : Members → Option α) (absent : β) (readRecord : Tree → Option β)
    (readInner : Members → Option β) : Prop where
  fits_null : Fits .null
  record_known : l.record ∈ l.known
  record_null : readRecord .null = some absent
  record_object : ∀ inner, readRecord (.object inner) = readObject readInner inner
  inner_congr : ∀ {inner inner' : Members},
    (∀ name ∈ l.inner, Members.SameAt name inner inner') → readInner inner = readInner inner'
  inner_once : ∀ {inner : Members}, (readInner inner).isSome →
    ∀ name ∈ l.inner, (inner.named name).length ≤ 1
  congr : ∀ {members members' : Members},
    (∀ name ∈ l.known, name ≠ l.record → Members.SameAt name members members') →
    members.ask l.record absent readRecord = members'.ask l.record absent readRecord →
    ((∀ m ∈ members, m.1 = l.record ∨ Fits m.2) ↔ ∀ m ∈ members', m.1 = l.record ∨ Fits m.2) →
    read members = read members'
  once : ∀ {members : Members}, (read members).isSome →
    ∀ name ∈ l.known, (members.named name).length ≤ 1
  record_read : ∀ {members : Members}, (read members).isSome →
    (members.ask l.record absent readRecord).isSome

namespace Layout.Reads

variable {l : Layout} {Fits : Tree → Prop} {α β : Type} {read : Members → Option α} {absent : β}
  {readRecord : Tree → Option β} {readInner : Members → Option β}
  (h : l.Reads Fits read absent readRecord readInner)
include h

theorem readRecord_eq_of_change {inner inner' : Written}
    (hchange : Written.Change l.inner (fun _ ↦ True) inner inner') :
    readRecord (.object inner) = readRecord (.object inner') := by
  rw [h.record_object, h.record_object]
  refine readObject_congr (hchange.readable_iff trivial) fun hreadable ↦ ?_
  exact h.inner_congr fun name hname ↦ hchange.sameAt hreadable hname

theorem eq_of_top_change {members members' : Written}
    (hchange : Written.Change l.known Fits members members') :
    readObject read members = readObject read members' := by
  refine readObject_congr (hchange.readable_iff h.fits_null) fun hreadable ↦ ?_
  have hsame {name : String} (hname : name ∈ l.known) := hchange.sameAt hreadable hname
  refine h.congr (fun name hname _ ↦ hsame hname) ?_ ?_
  · exact (hsame h.record_known).ask h.record_null
  · simp only [List.forall_mem_map]
    exact hchange.forall_iff h.fits_null fun _ hfits ↦ .inr hfits

theorem eq_of_inside_change {before after inner inner' : Written} {key : List Piece}
    (hname : text? key = some l.record)
    (hchange : Written.Change l.inner (fun _ ↦ True) inner inner') :
    readObject read (before ++ (key, .object inner) :: after) =
      readObject read (before ++ (key, .object inner') :: after) := by
  have hreadable (t : Tree) : Written.Readable (before ++ (key, t) :: after) ↔
      Written.Readable before ∧ Written.Readable after := by
    simp only [Written.Readable, List.forall_mem_append, List.forall_mem_cons, hname,
      Option.isSome_some, true_and]
  refine readObject_congr ((hreadable _).trans (hreadable _).symm) fun _ ↦ ?_
  simp only [List.map_append, List.map_cons, byName_of_text? hname]
  refine h.congr (fun name _ hother ↦ .inl ?_) ?_ ?_
  · simp only [Members.named_append, Members.named_cons, if_neg hother.symm]
    exact .refl _
  · exact Members.ask_replace (h.readRecord_eq_of_change hchange) _ _
  · simp only [List.forall_mem_append, List.forall_mem_cons, true_or, true_and]

theorem eq_of_change {members members' : Written} (hchange : l.Change Fits members members') :
    readObject read members = readObject read members' := by
  cases hchange with
  | top hchange => exact h.eq_of_top_change hchange
  | inside hname hchange => exact h.eq_of_inside_change hname hchange

/-- A reply is read alike however it is presented. -/
theorem eq_of_presents {members members' : Written}
    (hpresents : l.Presents Fits members members') :
    readObject read members = readObject read members' := by
  induction hpresents with
  | rel _ _ hchange => exact h.eq_of_change hchange
  | refl _ => rfl
  | symm _ _ _ ih => exact ih.symm
  | trans _ _ _ _ _ ih ih' => exact ih.trans ih'

/-- A repeated name makes a reply unreadable. -/
theorem eq_none_of_repeats {members : Written} (hrepeats : l.Repeats members) :
    readObject read members = none := by
  refine readObject_eq_none (Option.not_isSome_iff_eq_none.mp fun hread ↦ ?_)
  rcases hrepeats with hrepeats | ⟨key, inner, hmem, hname, hrepeats⟩
  · obtain ⟨name, hknown, htwo⟩ := hrepeats.two_le
    exact absurd (h.once hread name hknown) (by omega)
  · have hinner : readRecord (.object inner) = none := by
      rw [h.record_object]
      refine readObject_eq_none (Option.not_isSome_iff_eq_none.mp fun hinner ↦ ?_)
      obtain ⟨name, hknown, htwo⟩ := hrepeats.two_le
      exact absurd (h.inner_once hinner name hknown) (by omega)
    have hrecord : Tree.object inner ∈ Members.named l.record (members.map byName) := by
      have hfound := @List.mem_map_of_mem _ _ _ _ byName hmem
      rw [byName_of_text? hname] at hfound
      exact List.mem_map.mpr ⟨_, List.mem_filter.mpr ⟨hfound, by simp⟩, rfl⟩
    have hask := h.record_read hread
    rw [Members.ask_eq_none hrecord hinner] at hask
    exact nomatch hask

end Layout.Reads
end Json

/-! ### The two kinds of reply -/

namespace Description

/-- A description is read from what it is asked for. -/
theorem ofMembers?_eq_of_sameAt {room : Nat} {members members' : Members}
    (h : ∀ name ∈ fields, Members.SameAt name members members') :
    ofMembers? room members = ofMembers? room members' := by
  refine ofMembers?_eq_of_part? fun name hname ↦ ?_
  rw [part?, part?]
  split
  · rw [Members.anyText?_eq_ask, Members.anyText?_eq_ask]
    exact (h name hname).ask rfl
  · rw [Members.optionalText?_eq_ask, Members.optionalText?_eq_ask]
    exact (h name hname).ask rfl

theorem once_of_ofMembers? {room : Nat} {members : Members}
    (h : (ofMembers? room members).isSome) :
    ∀ name ∈ fields, (members.named name).length ≤ 1 := by
  intro name hname
  obtain ⟨d, h⟩ := Option.isSome_iff_exists.mp h
  obtain ⟨s, hs⟩ := exists_part?_of_ofMembers? h hname
  rw [part?] at hs
  split at hs
  · exact (Members.isSome_anyText?_iff.mp (Option.isSome_of_eq_some hs)).1
  · exact (Members.isOptionalText_of_optionalText? hs).1

end Description

namespace Response

def layout : Layout where
  known := "operationId" :: "registrationState" :: Description.fields
  record := "registrationState"
  inner := Description.fields

/-- A member that is not asked for must have a meaning all the same. -/
def Fits (t : Tree) : Prop := (t.value? (maxDepth - 1)).isSome

theorem all_fit_iff (members : Members) :
    (members.all fun m ↦ m.1 == "registrationState" || (m.2.value? (maxDepth - 1)).isSome) =
      true ↔ ∀ m ∈ members, m.1 = "registrationState" ∨ Fits m.2 := by
  simp only [List.all_eq_true, Bool.or_eq_true, beq_iff_eq, Fits]

theorem reads : layout.Reads Fits ofMembers? .empty Description.ofTree?
    (Description.ofMembers? (maxDepth - 2)) where
  fits_null := rfl
  record_known := by decide
  record_null := rfl
  record_object _ := rfl
  inner_congr := Description.ofMembers?_eq_of_sameAt
  inner_once := Description.once_of_ofMembers?
  congr := by
    intro members members' hsame hrecord hfit
    have hid : members.optionalText? "operationId" = members'.optionalText? "operationId" := by
      rw [Members.optionalText?_eq_ask, Members.optionalText?_eq_ask]
      exact (hsame "operationId" (by decide) (by decide)).ask rfl
    have htop : Description.ofMembers? (maxDepth - 1) members =
        Description.ofMembers? (maxDepth - 1) members' := by
      refine Description.ofMembers?_eq_of_sameAt fun name hname ↦ ?_
      refine hsame name (List.mem_cons_of_mem _ (List.mem_cons_of_mem _ hname)) ?_
      rintro rfl
      exact absurd hname (by decide)
    have hnested : members.ask "registrationState" .empty Description.ofTree? =
        members'.ask "registrationState" .empty Description.ofTree? := hrecord
    have hall := (all_fit_iff members).trans (hfit.trans (all_fit_iff members').symm)
    simp only [ofMembers?_eq, hid, htop, hnested, Bool.eq_iff_iff.mpr hall]
  once := by
    intro members h
    obtain ⟨response, h⟩ := Option.isSome_iff_exists.mp h
    simp only [ofMembers?_eq, Option.bind_eq_bind, Option.bind_eq_some_iff] at h
    obtain ⟨_, hid, _, htop, _, hrecord, -⟩ := h
    simp only [layout, List.forall_mem_cons]
    exact ⟨(Members.isOptionalText_of_optionalText? hid).1,
      (Members.isSome_ask_iff.mp (Option.isSome_of_eq_some hrecord)).1,
      Description.once_of_ofMembers? (Option.isSome_of_eq_some htop)⟩
  record_read := by
    intro members h
    obtain ⟨response, h⟩ := Option.isSome_iff_exists.mp h
    simp only [ofMembers?_eq, Option.bind_eq_bind, Option.bind_eq_some_iff] at h
    obtain ⟨_, -, _, -, _, hrecord, -⟩ := h
    exact Option.isSome_of_eq_some hrecord

theorem ofBytes?_eq_readObject {body : Bytes} {members : Written}
    (h : Tree.ofBytes? body = some (.object members)) :
    ofBytes? body = readObject ofMembers? members := by
  rw [ofBytes?, h]
  rfl

end Response

namespace NonceReply

def layout : Layout where
  known := fields
  record := "tpm"
  inner := ["authenticationKey"]

theorem reads : layout.Reads (fun _ ↦ True) ofMembers? none nestedKey?
    (Members.optionalText? "authenticationKey") where
  fits_null := trivial
  record_known := by decide
  record_null := rfl
  record_object _ := rfl
  inner_congr := by
    intro inner inner' hsame
    rw [Members.optionalText?_eq_ask, Members.optionalText?_eq_ask]
    exact (hsame "authenticationKey" (by decide)).ask rfl
  inner_once := by
    intro inner h
    obtain ⟨key, hkey⟩ := Option.isSome_iff_exists.mp h
    simp only [layout, List.forall_mem_cons]
    exact ⟨(Members.isOptionalText_of_optionalText? hkey).1, fun _ h ↦ nomatch h⟩
  congr := by
    intro members members' hsame hrecord _
    have htext (name : String) (hname : name ∈ fields) (hother : name ≠ "tpm") :
        members.optionalText? name = members'.optionalText? name := by
      rw [Members.optionalText?_eq_ask, Members.optionalText?_eq_ask]
      exact (hsame name hname hother).ask rfl
    have hcode : members.anyText? (maxDepth - 1) "errorCode" =
        members'.anyText? (maxDepth - 1) "errorCode" := by
      rw [Members.anyText?_eq_ask, Members.anyText?_eq_ask]
      exact (hsame "errorCode" (by decide) (by decide)).ask rfl
    have htpm : tpmKey? members = tpmKey? members' := hrecord
    simp (disch := decide) only [ofMembers?_eq, htext, htpm, hcode]
  once := by
    intro members h
    exact (typed_iff.mpr h).once
  record_read := by
    intro members h
    have htpm := (typed_iff.mpr h).tpmKey?
    exact Option.isSome_of_eq_some htpm

theorem ofBytes?_eq_readObject {body : Bytes} {members : Written}
    (h : Tree.ofBytes? body = some (.object members)) :
    ofBytes? body = readObject ofMembers? members := by
  rw [ofBytes?, h]
  rfl

end NonceReply

/-- Two replies that present the same members give the same result, and a reply that
repeats a name is refused. -/
theorem replies_read_by_name {body body' : Bytes} {members members' : Written}
    (hbody : Tree.ofBytes? body = some (.object members))
    (hbody' : Tree.ofBytes? body' = some (.object members')) :
    (Response.layout.Presents Response.Fits members members' →
        Outcome.ofBytes body = Outcome.ofBytes body') ∧
      (NonceReply.layout.Presents (fun _ ↦ True) members members' →
        authenticationKey body = authenticationKey body') ∧
      (Response.layout.Repeats members' → Outcome.ofBytes body' = .error .malformedBody) ∧
      (NonceReply.layout.Repeats members' →
        authenticationKey body' = .error .malformedBody) := by
  have hresponse := Response.ofBytes?_eq_readObject hbody
  have hresponse' := Response.ofBytes?_eq_readObject hbody'
  have hnonce := NonceReply.ofBytes?_eq_readObject hbody
  have hnonce' := NonceReply.ofBytes?_eq_readObject hbody'
  refine ⟨fun hpresents ↦ ?_, fun hpresents ↦ ?_, fun hrepeats ↦ ?_, fun hrepeats ↦ ?_⟩
  · rw [Outcome.ofBytes, Outcome.ofBytes, hresponse, hresponse',
      Response.reads.eq_of_presents hpresents]
  · rw [authenticationKey, authenticationKey, hnonce, hnonce',
      NonceReply.reads.eq_of_presents hpresents]
  · rw [Outcome.ofBytes, hresponse', Response.reads.eq_none_of_repeats hrepeats]
  · rw [authenticationKey, hnonce', NonceReply.reads.eq_none_of_repeats hrepeats]

/-! ### A reply in two presentations -/

def assignedStatus : List Piece × Tree := (plain "status", .string (plain "assigned"))

def deviceRecord : Written := [(plain "deviceId", .string (plain "d"))]

/-- The record with a member nobody asks for, whose number is out of range. -/
def amplerRecord : Written := (plain "y", .number ⟨false, [1], [], some 999⟩) :: deviceRecord

def keyMember : List Piece × Tree := (plain "authenticationKey", .string (plain "YQ=="))

def sparseReply : Written :=
  [assignedStatus, (plain "registrationState", .object deviceRecord), keyMember]

def amplerReply : Written :=
  [(plain "x", .bool true), (plain "registrationState", .object amplerRecord),
    (plain "etag", .null), assignedStatus, keyMember]

def repeatingReply : Written :=
  [(plain "status", .null), (plain "authenticationKey", .null), assignedStatus, keyMember]

def sparseBody : Bytes := Bytes.ofText <|
  "\x7b\"status\":\"assigned\",\"registrationState\":\x7b\"deviceId\":\"d\"\x7d," ++
    "\"authenticationKey\":\"YQ==\"\x7d"

def amplerBody : Bytes := Bytes.ofText <|
  "\x7b\"x\":true,\"registrationState\":\x7b\"y\":1e999,\"deviceId\":\"d\"\x7d," ++
    "\"etag\":null,\"status\":\"assigned\",\"authenticationKey\":\"YQ==\"\x7d"

def repeatingBody : Bytes := Bytes.ofText <|
  "\x7b\"status\":null,\"authenticationKey\":null," ++
    "\"status\":\"assigned\",\"authenticationKey\":\"YQ==\"\x7d"

/-- Once the two records present the same, the two replies do. -/
theorem presents_amplerReply {l : Layout} {Fits : Tree → Prop} (hx : "x" ∉ l.known)
    (hfits : Fits (.bool true))
    (hrecord : l.Presents Fits
      [(plain "registrationState", .object deviceRecord), assignedStatus, keyMember]
      [(plain "registrationState", .object amplerRecord), assignedStatus, keyMember]) :
    l.Presents Fits sparseReply amplerReply := by
  have hfirst : l.Presents Fits sparseReply
      [(plain "registrationState", .object deviceRecord), assignedStatus, keyMember] :=
    .of_perm (.swap _ _ _)
  have habsent : ¬ Written.Has "etag"
      [(plain "registrationState", .object amplerRecord), assignedStatus, keyMember] := by
    simp [Written.Has, assignedStatus, keyMember]
  have hlast : l.Presents Fits
      [(plain "etag", .null), (plain "registrationState", .object amplerRecord), assignedStatus,
        keyMember]
      [(plain "registrationState", .object amplerRecord), (plain "etag", .null), assignedStatus,
        keyMember] :=
    .of_perm (.swap _ _ _)
  have hetag : l.Presents Fits
      [(plain "registrationState", .object amplerRecord), assignedStatus, keyMember]
      [(plain "etag", .null), (plain "registrationState", .object amplerRecord), assignedStatus,
        keyMember] :=
    .absent (text?_plain "etag") habsent
  exact hfirst.trans (hrecord.trans (hetag.trans (hlast.trans
    (.unknown (text?_plain "x") hx hfits))))

theorem Response.presents_amplerReply :
    Response.layout.Presents Response.Fits sparseReply amplerReply := by
  refine Enrollment.presents_amplerReply (by decide) rfl (.rel _ _ ?_)
  have hrecord : Written.Change Description.fields (fun _ ↦ True) deviceRecord amplerRecord :=
    .unknown (text?_plain "y") (by decide) trivial
  exact @Layout.Change.inside Response.layout Response.Fits [] [assignedStatus, keyMember]
    deviceRecord amplerRecord _ (text?_plain "registrationState") hrecord

/-- Nobody looks for a registration in a nonce reply. -/
theorem NonceReply.presents_amplerReply :
    NonceReply.layout.Presents (fun _ ↦ True) sparseReply amplerReply := by
  have hunknown (record : Written) : NonceReply.layout.Presents (fun _ ↦ True)
      [assignedStatus, keyMember]
      [(plain "registrationState", .object record), assignedStatus, keyMember] :=
    .unknown (text?_plain "registrationState") (by decide) trivial
  exact Enrollment.presents_amplerReply (by decide) trivial
    ((hunknown deviceRecord).symm.trans (hunknown amplerRecord))

theorem repeats_repeatingReply :
    Response.layout.Repeats repeatingReply ∧ NonceReply.layout.Repeats repeatingReply := by
  constructor
  · refine .inl
      ⟨"status", by decide, [], _, _, _, rfl, text?_plain "status", assignedStatus, ?_, ?_⟩
    · simp
    · exact text?_plain "status"
  · refine .inl ⟨"authenticationKey", by decide, [(plain "status", .null)], _, _, _, rfl,
      text?_plain "authenticationKey", keyMember, ?_, ?_⟩
    · simp
    · exact text?_plain "authenticationKey"

theorem replies_read_by_name_ampler :
    Tree.ofBytes? sparseBody = some (.object sparseReply) ∧
      Tree.ofBytes? amplerBody = some (.object amplerReply) ∧
      Tree.ofBytes? repeatingBody = some (.object repeatingReply) ∧
      Outcome.ofBytes sparseBody = Outcome.ofBytes amplerBody ∧
      Outcome.ofBytes amplerBody = .ok ⟨.assigned, none, none, none, some "d", none, none, none,
        none, none, none⟩ ∧
      authenticationKey sparseBody = authenticationKey amplerBody ∧
      authenticationKey amplerBody = .ok "YQ==" ∧
      Outcome.ofBytes repeatingBody = .error .malformedBody ∧
      authenticationKey repeatingBody = .error .malformedBody := by
  have hsparse : Tree.ofBytes? sparseBody = some (.object sparseReply) := by decide +kernel
  have hampler : Tree.ofBytes? amplerBody = some (.object amplerReply) := by decide +kernel
  have hrepeating : Tree.ofBytes? repeatingBody = some (.object repeatingReply) := by
    decide +kernel
  have hresponse : Response.ofBytes? amplerBody = some ⟨none,
      { Description.empty with status := some "assigned" },
      { Description.empty with deviceId := some "d" }⟩ := by
    decide +kernel
  have hstatus : Status.ofText? "assigned" = some .assigned := by decide +kernel
  have hnonce : NonceReply.ofBytes? amplerBody = some ⟨some "YQ==", none, none, none, none⟩ := by
    decide +kernel
  refine ⟨hsparse, hampler, hrepeating,
    (replies_read_by_name hsparse hampler).1 Response.presents_amplerReply, ?_,
    (replies_read_by_name hsparse hampler).2.1 NonceReply.presents_amplerReply, ?_,
    (replies_read_by_name hrepeating hrepeating).2.2.1 repeats_repeatingReply.1,
    (replies_read_by_name hrepeating hrepeating).2.2.2 repeats_repeatingReply.2⟩
  · rw [Outcome.ofBytes, hresponse]
    simp [Response.outcome, Description.empty, hstatus]
  · rw [authenticationKey, hnonce]
    rfl

/-! ### A member nobody asks for is read at the top level -/

def statusAndNumberBody : Bytes := Bytes.ofText "\x7b\"x\":1e999,\"status\":\"assigned\"\x7d"

def statusAndSurrogateBody : Bytes :=
  Bytes.ofText "\x7b\"x\":\"\\ud800\",\"status\":\"assigned\"\x7d"

/-- A number out of range, or half of a surrogate pair, makes a status unreadable that it
stands beside, although both are values of the grammar and not nested at all. -/
theorem outcome_lost_beside_unreadable :
    Tree.ofBytes? Program.assignedBody = some (.object [assignedStatus]) ∧
      Tree.ofBytes? statusAndNumberBody =
        some (.object [(plain "x", .number ⟨false, [1], [], some 999⟩), assignedStatus]) ∧
      Tree.ofBytes? statusAndSurrogateBody =
        some (.object [(plain "x", .string [.unit 0xd800]), assignedStatus]) ∧
      "x" ∉ Response.layout.known ∧
      Outcome.ofBytes Program.assignedBody =
        .ok ⟨.assigned, none, none, none, none, none, none, none, none, none, none⟩ ∧
      Outcome.ofBytes statusAndNumberBody = .error .malformedBody ∧
      Outcome.ofBytes statusAndSurrogateBody = .error .malformedBody := by
  have hread : Response.ofBytes? Program.assignedBody =
      some ⟨none, { Description.empty with status := some "assigned" }, .empty⟩ := by
    decide +kernel
  have hstatus : Status.ofText? "assigned" = some .assigned := by decide +kernel
  have hnumber : Response.ofBytes? statusAndNumberBody = none := by decide +kernel
  have hsurrogate : Response.ofBytes? statusAndSurrogateBody = none := by decide +kernel
  refine ⟨by decide +kernel, by decide +kernel, by decide +kernel, by decide, ?_, ?_, ?_⟩
  · rw [Outcome.ofBytes, hread]
    simp [Response.outcome, Description.empty, hstatus]
  · rw [Outcome.ofBytes, hnumber]
  · rw [Outcome.ofBytes, hsurrogate]

end Enrollment
