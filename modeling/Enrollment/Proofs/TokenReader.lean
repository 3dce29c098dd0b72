import Enrollment.Digest
import Enrollment.Proofs.Base64
import Enrollment.Proofs.Percent
import Enrollment.Token
namespace Enrollment.Token

/-!
# Reading a bearer token

The service takes a token apart at its separators, undoes the encodings of the
resource and of the signature, and signs resource and expiry again.  It finds in
every token what the device put into it.
-/

/-- The value in `name=value`. -/
def field? (name : String) (part : List Char) : Option String :=
  match part.splitOn '=' with
  | [found, value] => if found = name.toList then some (String.ofList value) else none
  | _ => none

/-- What a token says; the expiry is kept as it is written, since it is signed so. -/
structure Content where
  scope : String
  signature : Bytes
  expiry : String
deriving DecidableEq

def Content.ofFields? : List (List Char) → Option Content
  | [resource, signature, expiry, keyName] => do
    let scope ← Percent.decode? (← field? "sr" resource)
    let encoded ← Percent.decode? (← field? "sig" signature)
    let signature ← (Base64.decode (Bytes.ofText encoded)).toOption
    let expiry ← field? "se" expiry
    let keyName ← field? "skn" keyName
    if keyName = "registration" then some ⟨scope, signature, expiry⟩ else none
  | _ => none

def read? (token : String) : Option Content :=
  match token.toList.splitOn ' ' with
  | [scheme, fields] =>
    if scheme = "SharedAccessSignature".toList then Content.ofFields? (fields.splitOn '&')
    else none
  | _ => none

/-- Whoever holds the key finds the signature again. -/
def Content.SignedBy (key : Bytes) (c : Content) : Prop :=
  Hmac.sign key (Bytes.ofText (c.scope ++ "\n" ++ c.expiry)) = c.signature

instance (key : Bytes) (c : Content) : Decidable (c.SignedBy key) :=
  inferInstanceAs (Decidable (_ = _))

/-! ### The resource is the path of a registration -/

theorem checkPart_eq_ok_iff {part : ScopePart} {text : String} :
    checkPart part text = .ok () ↔
      text.isEmpty = false ∧ text.toList.all isSegmentChar = true := by
  unfold checkPart
  cases text.isEmpty with
  | true => simp
  | false => cases text.toList.all isSegmentChar <;> simp

theorem scope_eq_ok_iff {idScope registrationId resource : String} :
    scope idScope registrationId = .ok resource ↔
      checkPart .idScope idScope = .ok () ∧ checkPart .registrationId registrationId = .ok () ∧
        resource = idScope ++ "/registrations/" ++ registrationId := by
  simp only [scope, bind_eq_ok_iff]
  constructor
  · rintro ⟨_, hscope, _, hid, hresource⟩
    exact ⟨hscope, hid, (Except.ok.inj hresource).symm⟩
  · rintro ⟨hscope, hid, rfl⟩
    exact ⟨(), hscope, (), hid, rfl⟩

theorem eq_of_scope {idScope registrationId resource : String}
    (h : scope idScope registrationId = .ok resource) :
    resource = idScope ++ "/registrations/" ++ registrationId ∧ registrationId ≠ "" := by
  obtain ⟨-, hid, heq⟩ := scope_eq_ok_iff.mp h
  refine ⟨heq, ?_⟩
  rintro rfl
  exact nomatch hid

theorem scope_eq_ok {idScope registrationId : String} (hscope : idScope.isEmpty = false)
    (hscopeChars : idScope.toList.all isSegmentChar = true)
    (hid : registrationId.isEmpty = false)
    (hidChars : registrationId.toList.all isSegmentChar = true) :
    scope idScope registrationId = .ok (idScope ++ "/registrations/" ++ registrationId) :=
  scope_eq_ok_iff.mpr ⟨checkPart_eq_ok_iff.mpr ⟨hscope, hscopeChars⟩,
    checkPart_eq_ok_iff.mpr ⟨hid, hidChars⟩, rfl⟩

theorem segments_of_scope {idScope registrationId resource : String}
    (h : scope idScope registrationId = .ok resource) :
    idScope.toList.all isSegmentChar = true :=
  (checkPart_eq_ok_iff.mp (scope_eq_ok_iff.mp h).1).2

theorem fault_of_checkPart {part : ScopePart} {text : String} {error : Error}
    (h : checkPart part text = .error error) :
    error = .client (.emptyScopePart part) ∨ error = .client (.badScopePart part text) := by
  unfold checkPart at h
  split at h
  · exact .inl (Except.error.inj h).symm
  · split at h
    · exact nomatch h
    · exact .inr (Except.error.inj h).symm

/-- A resource is refused for one of its segments. -/
theorem fault_of_scope {idScope registrationId : String} {error : Error}
    (h : scope idScope registrationId = .error error) :
    ∃ part, error = .client (.emptyScopePart part) ∨
      ∃ text, error = .client (.badScopePart part text) := by
  unfold scope at h
  cases hscope : checkPart .idScope idScope with
  | error e =>
    obtain rfl : e = error := by simpa [hscope, bind, Except.bind] using h
    exact ⟨_, (fault_of_checkPart hscope).imp_right fun h ↦ ⟨_, h⟩⟩
  | ok _ =>
    cases hid : checkPart .registrationId registrationId with
    | error e =>
      obtain rfl : e = error := by simpa [hscope, hid, bind, Except.bind] using h
      exact ⟨_, (fault_of_checkPart hid).imp_right fun h ↦ ⟨_, h⟩⟩
    | ok _ => simp [hscope, hid, bind, Except.bind, pure, Except.pure] at h

/-! ### No separator stands in a part -/

def isSeparator (c : Char) : Bool := c == ' ' || c == '&' || c == '='

theorem eq_of_isSeparator {c : Char} (h : isSeparator c = true) : c = ' ' ∨ c = '&' ∨ c = '=' := by
  simpa [isSeparator, or_assoc] using h

/-- A text without separators, as the value of a field is. -/
def Closed (cs : List Char) : Prop := ∀ c ∈ cs, isSeparator c = false

theorem Closed.not_mem {cs : List Char} (h : Closed cs) {c : Char} (hc : isSeparator c = true) :
    c ∉ cs := by
  intro hmem
  rw [h c hmem] at hc
  exact nomatch hc

/-- What an encoded text may hold separates nothing. -/
theorem closed_of_isWritten {cs : List Char} (h : ∀ c ∈ cs, Percent.isWritten c = true) :
    Closed cs := by
  intro c hc
  have hwritten : Percent.isWritten c = true := h c hc
  cases hsep : isSeparator c with
  | false => rfl
  | true =>
    rcases eq_of_isSeparator hsep with rfl | rfl | rfl <;> exact absurd hwritten (by decide)

theorem closed_encode (s : String) : Closed (Percent.encode s).toList :=
  closed_of_isWritten fun _ ↦ Percent.isWritten_of_mem_encode

theorem isDigit_of_mem_decimal {n : Nat} {c : Char} (h : c ∈ (decimal n).toList) :
    c.isDigit = true := by
  rw [decimal, String.toList_ofList] at h
  exact Nat.isDigit_of_mem_toDigits (by decide) (by decide) h

theorem isWritten_of_mem_decimal {n : Nat} {c : Char} (h : c ∈ (decimal n).toList) :
    Percent.isWritten c = true :=
  Percent.isWritten_of_isDigit (isDigit_of_mem_decimal h)

theorem closed_decimal (n : Nat) : Closed (decimal n).toList :=
  closed_of_isWritten fun _ ↦ isWritten_of_mem_decimal

/-! ### A written token is read -/

theorem not_mem_intercalate {x sep : Char} {parts : List (List Char)} (hsep : x ≠ sep)
    (hparts : ∀ part ∈ parts, x ∉ part) : x ∉ [sep].intercalate parts := by
  induction parts with
  | nil => simp
  | cons part parts ih =>
    have hpart : x ∉ part := hparts part (by simp)
    have hrest : x ∉ [sep].intercalate parts := ih fun p hp ↦ hparts p (by simp [hp])
    cases parts with
    | nil => simpa [List.intercalate] using hpart
    | cons next parts => simpa [List.intercalate, hpart, hsep] using hrest

def fieldChars (name value : String) : List Char := name.toList ++ '=' :: value.toList

theorem splitOn_append {x : Char} {before after : List Char} (hbefore : x ∉ before)
    (hafter : x ∉ after) : (before ++ x :: after).splitOn x = [before, after] := by
  have hparts : ∀ part ∈ [before, after], x ∉ part := by simp [hbefore, hafter]
  have hwhole : before ++ x :: after = [x].intercalate [before, after] := by
    simp [List.intercalate]
  rw [hwhole, List.splitOn_intercalate x hparts (List.cons_ne_nil _ _)]

theorem splitOn_fieldChars {name value : String} (hname : Closed name.toList)
    (hvalue : Closed value.toList) :
    (fieldChars name value).splitOn '=' = [name.toList, value.toList] :=
  splitOn_append (hname.not_mem rfl) (hvalue.not_mem rfl)

theorem field?_fieldChars {name value : String} (hname : Closed name.toList)
    (hvalue : Closed value.toList) : field? name (fieldChars name value) = some value := by
  simp [field?, splitOn_fieldChars hname hvalue]

def contentFields (scope : String) (expiry : Nat) (signature : Bytes) : List (List Char) :=
  [fieldChars "sr" (Percent.encode scope),
    fieldChars "sig" (Percent.encode (Base64.encode signature)),
    fieldChars "se" (decimal expiry), fieldChars "skn" "registration"]

theorem closed_of_all {s : String} (h : s.toList.all (fun c ↦ !isSeparator c) = true) :
    Closed s.toList := by
  intro c hc
  simpa using List.all_eq_true.mp h c hc

theorem ofFields?_contentFields (scope : String) (expiry : Nat) (signature : Bytes) :
    Content.ofFields? (contentFields scope expiry signature) =
      some ⟨scope, signature, decimal expiry⟩ := by
  have hresource : field? "sr" (fieldChars "sr" (Percent.encode scope)) = some _ :=
    field?_fieldChars (closed_of_all rfl) (closed_encode scope)
  have hsignature : field? "sig" (fieldChars "sig" (Percent.encode (Base64.encode signature))) =
      some _ :=
    field?_fieldChars (closed_of_all rfl) (closed_encode (Base64.encode signature))
  have hexpiry : field? "se" (fieldChars "se" (decimal expiry)) = some _ :=
    field?_fieldChars (closed_of_all rfl) (closed_decimal expiry)
  have hkeyName : field? "skn" (fieldChars "skn" "registration") = some _ :=
    field?_fieldChars (closed_of_all rfl) (closed_of_all rfl)
  simp [contentFields, Content.ofFields?, hresource, hsignature, hexpiry, hkeyName,
    Percent.decode?_encode, Base64.decode_ofText_encode, Except.toOption]

theorem not_mem_fieldChars {name value : String} {x : Char} (hname : x ∉ name.toList)
    (hvalue : x ∉ value.toList) (hx : x ≠ '=') : x ∉ fieldChars name value := by
  simp [fieldChars, hname, hvalue, hx]

theorem not_mem_contentFields (scope : String) (expiry : Nat) (signature : Bytes) {x : Char}
    (hsep : isSeparator x = true) (hx : x ≠ '=') :
    ∀ part ∈ contentFields scope expiry signature, x ∉ part := by
  have hfixed : ∀ {s : String}, s.toList.all (fun c ↦ !isSeparator c) = true → x ∉ s.toList :=
    fun h ↦ (closed_of_all h).not_mem hsep
  have hresource : x ∉ fieldChars "sr" (Percent.encode scope) :=
    not_mem_fieldChars (hfixed rfl) ((closed_encode scope).not_mem hsep) hx
  have hsignature : x ∉ fieldChars "sig" (Percent.encode (Base64.encode signature)) :=
    not_mem_fieldChars (hfixed rfl) ((closed_encode _).not_mem hsep) hx
  have hexpiry : x ∉ fieldChars "se" (decimal expiry) :=
    not_mem_fieldChars (hfixed rfl) ((closed_decimal expiry).not_mem hsep) hx
  have hkeyName : x ∉ fieldChars "skn" "registration" :=
    not_mem_fieldChars (hfixed rfl) (hfixed rfl) hx
  simp [contentFields, hresource, hsignature, hexpiry, hkeyName]

theorem splitOn_contentFields (scope : String) (expiry : Nat) (signature : Bytes) :
    (['&'].intercalate (contentFields scope expiry signature)).splitOn '&' =
      contentFields scope expiry signature :=
  List.splitOn_intercalate '&' (not_mem_contentFields scope expiry signature rfl (by decide))
    (List.cons_ne_nil _ _)

theorem toList_of_ofSignature {scope token : String} {expiry : Nat} {signature : Bytes}
    (h : ofSignature scope expiry signature = .ok token) :
    token.toList = "SharedAccessSignature".toList ++
      ' ' :: ['&'].intercalate (contentFields scope expiry signature) := by
  unfold ofSignature at h
  split at h
  · exact nomatch h
  · obtain rfl := Except.ok.inj h
    simp [contentFields, fieldChars, List.intercalate]

theorem eq_of_ofSignature {scope token : String} {expiry : Nat} {signature : Bytes}
    (h : ofSignature scope expiry signature = .ok token) :
    token = "SharedAccessSignature " ++
      String.ofList (['&'].intercalate (contentFields scope expiry signature)) := by
  rw [← String.toList_inj, toList_of_ofSignature h]
  simp

/-- What a device writes into a token is what the service reads out of it. -/
theorem read?_of_ofSignature {scope token : String} {expiry : Nat} {signature : Bytes}
    (h : ofSignature scope expiry signature = .ok token) :
    read? token = some ⟨scope, signature, decimal expiry⟩ := by
  have hblank : ' ' ∉ ['&'].intercalate (contentFields scope expiry signature) :=
    not_mem_intercalate (by decide) (not_mem_contentFields scope expiry signature rfl (by decide))
  have hscheme : ' ' ∉ "SharedAccessSignature".toList := (closed_of_all rfl).not_mem rfl
  rw [read?, toList_of_ofSignature h, splitOn_append hscheme hblank]
  simp only [if_true, splitOn_contentFields, ofFields?_contentFields]

end Enrollment.Token
