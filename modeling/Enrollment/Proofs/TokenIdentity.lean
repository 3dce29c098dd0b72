import Enrollment.Proofs.TokenReader
import Enrollment.Proofs.Trace
namespace Enrollment.Token

/-!
# What tokens and signed texts identify

A token is taken apart in one way only, so tokens for different resources,
signatures or expiries differ.  What is signed for a token tells the device and the
expiry apart, since nothing in a segment could be taken for what stands after it.
-/

open Program

/-! ### A token has one reading -/

/-- The characters that stand for themselves in an encoded text. -/
def isPlain (c : Char) : Bool :=
  c.isAlphanum || c == '-' || c == '_' || c == '.' || c == '~'

/-- The parts of the fields of a text. -/
def fieldsOf (text : String) : List (List String) :=
  (text.toList.splitOn '&').map fun field ↦ (field.splitOn '=').map String.ofList

/-- The number some decimal digits are read as. -/
def number? (digits : String) : Option Nat :=
  if digits ≠ "" ∧ digits.toList.all Char.isDigit then some (Nat.ofDigitChars 10 digits.toList 0)
  else none

/-- The text after the scheme of a token, which says this. -/
structure Spells (text : String) (scope : String) (signature : Bytes) (expiry : Nat) : Prop where
  fields : ∃ resource encoded digits : String,
    fieldsOf text = [["sr", resource], ["sig", encoded], ["se", digits], ["skn", "registration"]] ∧
      Percent.decode? resource = some scope ∧
      (∃ base64, Percent.decode? encoded = some base64 ∧
        Base64.decode (Bytes.ofText base64) = .ok signature) ∧
      number? digits = some expiry
  characters : ∀ c ∈ text.toList, isPlain c = true ∨ c = '%' ∨ c = '&' ∨ c = '='

/-- Nothing else is said by such a text. -/
theorem Spells.unique {text scope scope' : String} {signature signature' : Bytes}
    {expiry expiry' : Nat} (h : Spells text scope signature expiry)
    (h' : Spells text scope' signature' expiry') :
    scope' = scope ∧ signature' = signature ∧ expiry' = expiry := by
  obtain ⟨resource, encoded, digits, hfields, hscope, ⟨base64, hbase64, hsignature⟩, hexpiry⟩ :=
    h.fields
  obtain ⟨resource', encoded', digits', hfields', hscope', ⟨base64', hbase64', hsignature'⟩,
    hexpiry'⟩ := h'.fields
  simp only [hfields, List.cons.injEq, true_and, and_true] at hfields'
  obtain ⟨rfl, rfl, rfl⟩ := hfields'
  obtain rfl : base64 = base64' := Option.some.inj (hbase64.symm.trans hbase64')
  exact ⟨Option.some.inj (hscope'.symm.trans hscope),
    Except.ok.inj (hsignature'.symm.trans hsignature),
    Option.some.inj (hexpiry'.symm.trans hexpiry)⟩

theorem number?_decimal (n : Nat) : number? (decimal n) = some n := by
  have hlist : (decimal n).toList = Nat.toDigits 10 n := String.toList_ofList
  have hne : decimal n ≠ "" := by
    intro hempty
    rw [hempty] at hlist
    exact Nat.toDigits_ne_nil hlist.symm
  have hdigits : (decimal n).toList.all Char.isDigit = true :=
    List.all_eq_true.mpr fun _ ↦ isDigit_of_mem_decimal
  have hvalue : Nat.ofDigitChars 10 (Nat.toDigits 10 n) 0 = n := Nat.ofDigitChars_ten_toDigits
  rw [number?, if_pos ⟨hne, hdigits⟩, hlist, hvalue]

theorem isPlain_of_isWritten {c : Char} (h : Percent.isWritten c = true) :
    isPlain c = true ∨ c = '%' := by
  have hcodes : ∀ n, n < 128 → Percent.isWritten (Char.ofNat n) = true →
      isPlain (Char.ofNat n) = true ∨ Char.ofNat n = '%' := by
    decide +kernel
  by_cases hpercent : c = '%'
  · exact .inr hpercent
  have hascii : c.toNat < 128 := by
    simp only [Percent.isWritten, Bool.or_eq_true, beq_iff_eq, hpercent, false_or,
      Bool.and_eq_true, decide_eq_true_eq] at h
    exact h.1
  have hself : Char.ofNat c.toNat = c := Char.ofNat_toNat c
  have hcode := hcodes c.toNat hascii
  rw [hself] at hcode
  exact hcode h

theorem fieldsOf_contentFields (scope : String) (expiry : Nat) (signature : Bytes) :
    fieldsOf (String.ofList (['&'].intercalate (contentFields scope expiry signature))) =
      [["sr", Percent.encode scope], ["sig", Percent.encode (Base64.encode signature)],
        ["se", decimal expiry], ["skn", "registration"]] := by
  have hresource : (fieldChars "sr" (Percent.encode scope)).splitOn '=' = _ :=
    splitOn_fieldChars (closed_of_all rfl) (closed_encode scope)
  have hsignature :
      (fieldChars "sig" (Percent.encode (Base64.encode signature))).splitOn '=' = _ :=
    splitOn_fieldChars (closed_of_all rfl) (closed_encode (Base64.encode signature))
  have hexpiry : (fieldChars "se" (decimal expiry)).splitOn '=' = _ :=
    splitOn_fieldChars (closed_of_all rfl) (closed_decimal expiry)
  have hkeyName : (fieldChars "skn" "registration").splitOn '=' = _ :=
    splitOn_fieldChars (closed_of_all rfl) (closed_of_all rfl)
  rw [fieldsOf, String.toList_ofList, splitOn_contentFields]
  simp [contentFields, hresource, hsignature, hexpiry, hkeyName]

theorem isPlain_of_mem_contentFields (scope : String) (expiry : Nat) (signature : Bytes) {c : Char}
    (h : c ∈ ['&'].intercalate (contentFields scope expiry signature)) :
    isPlain c = true ∨ c = '%' ∨ c = '&' ∨ c = '=' := by
  refine Decidable.byContradiction fun hother ↦ ?_
  simp only [not_or] at hother
  obtain ⟨hplain, hpercent, hand, hequals⟩ := hother
  have hwritten : ¬ Percent.isWritten c = true := fun hc ↦
    (isPlain_of_isWritten hc).elim hplain hpercent
  have hfixed {s : String} (hs : s.toList.all Percent.isWritten = true) : c ∉ s.toList :=
    fun hc ↦ hwritten (List.all_eq_true.mp hs c hc)
  have hencoded (s : String) : c ∉ (Percent.encode s).toList :=
    fun hc ↦ hwritten (Percent.isWritten_of_mem_encode hc)
  have hdigits : c ∉ (decimal expiry).toList := fun hc ↦ hwritten (isWritten_of_mem_decimal hc)
  refine not_mem_intercalate hand ?_ h
  simp only [contentFields, List.forall_mem_cons]
  exact ⟨not_mem_fieldChars (hfixed rfl) (hencoded _) hequals,
    not_mem_fieldChars (hfixed rfl) (hencoded _) hequals,
    not_mem_fieldChars (hfixed rfl) hdigits hequals,
    not_mem_fieldChars (hfixed rfl) (hfixed rfl) hequals, List.forall_mem_nil _⟩

/-- What is written into a token stands after its scheme, for all to read. -/
theorem spells_of_ofSignature {scope token : String} {expiry : Nat} {signature : Bytes}
    (h : ofSignature scope expiry signature = .ok token) :
    ∃ text, token = "SharedAccessSignature " ++ text ∧ Spells text scope signature expiry := by
  refine ⟨_, eq_of_ofSignature h,
    ⟨_, _, _, fieldsOf_contentFields scope expiry signature, ?_, ?_, ?_⟩, ?_⟩
  · exact Percent.decode?_encode scope
  · exact ⟨_, Percent.decode?_encode _, Base64.decode_ofText_encode signature⟩
  · exact number?_decimal expiry
  · intro c hc
    rw [String.toList_ofList] at hc
    exact isPlain_of_mem_contentFields scope expiry signature hc

theorem ofSignature_eq_ok {signature : Bytes} (h : signature ≠ []) (scope : String)
    (expiry : Nat) : ∃ token, ofSignature scope expiry signature = .ok token := by
  have hsigned : ¬ signature.isEmpty = true := by simpa using h
  exact ⟨_, if_neg hsigned⟩

/-- A signer that has answered a scope and an expiry with a signature. -/
structure Signs (sign : Bytes → Program (Except Error Bytes)) (scope : String) (expiry : Nat)
    (signature : Bytes) (events : List Event) : Prop where
  answered : Runs (sign (Bytes.ofText (scope ++ "\n" ++ decimal expiry))) events (.ok signature)
  nonempty : signature ≠ []

/-- With the answers of its signer, a token comes to one result. -/
theorem Signs.runs_iff {sign : Bytes → Program (Except Error Bytes)} {scope : String}
    {expiry : Nat} {signature : Bytes} {events : List Event}
    (h : Signs sign scope expiry signature events) {result : Except Error String} :
    Runs (signed sign scope expiry) events result ↔
      result = ofSignature scope expiry signature := by
  have hrun : Runs (signed sign scope expiry) (events ++ [])
      (ofSignature scope expiry signature) :=
    runs_bind_iff.mpr ⟨events, [], _, rfl, h.answered, .done _⟩
  rw [List.append_nil] at hrun
  constructor
  · exact fun hother ↦ runs_unique hrun hother rfl
  · rintro rfl
    exact hrun

/-- A token can be read in one way, which gives back what it was made of, and it is the
token of nothing else. -/
theorem token_read_uniquely {sign : Bytes → Program (Except Error Bytes)} {scope : String}
    {expiry : Nat} {signature : Bytes} {events : List Event}
    (h : Signs sign scope expiry signature events) :
    ∃ text, (∀ result, Runs (signed sign scope expiry) events result ↔
        result = .ok ("SharedAccessSignature " ++ text)) ∧
      Spells text scope signature expiry ∧
      ∀ (sign' : Bytes → Program (Except Error Bytes)) (scope' : String) (expiry' : Nat)
        (signature' : Bytes) (events' : List Event),
        Signs sign' scope' expiry' signature' events' →
        Runs (signed sign' scope' expiry') events' (.ok ("SharedAccessSignature " ++ text)) →
        scope' = scope ∧ signature' = signature ∧ expiry' = expiry := by
  obtain ⟨token, htoken⟩ := ofSignature_eq_ok h.nonempty scope expiry
  obtain ⟨text, rfl, hspells⟩ := spells_of_ofSignature htoken
  refine ⟨text, fun result ↦ ?_, hspells, ?_⟩
  · rw [h.runs_iff, htoken]
  · intro sign' scope' expiry' signature' events' h' hrun
    obtain ⟨text', htext, hspells'⟩ := spells_of_ofSignature (h'.runs_iff.mp hrun).symm
    have hsame : text = text' := (String.append_right_inj _).mp htext
    exact hspells.unique (hsame ▸ hspells')

/-- A device that is asked for each signature. -/
def byDevice (data : Bytes) : Program (Except Error Bytes) := query (.device (.sign data))

/-- A resource made of all that has a meaning in a token, and of a letter of two bytes. -/
def separators : String := "sr=a&se=1 %26\né"

def separatorsSigned : List Event :=
  [⟨.device (.sign (signingInput separators 1700000000)), .ok [0xfb, 0xff, 0xbf]⟩]

def separatorsText : String :=
  "sr=sr%3Da%26se%3D1%20%2526%0A%C3%A9&sig=%2B%2F%2B%2F&se=1700000000&skn=registration"

theorem token_read_uniquely_separators :
    Signs byDevice separators 1700000000 [0xfb, 0xff, 0xbf] separatorsSigned ∧
      Runs (signed byDevice separators 1700000000) separatorsSigned
        (.ok ("SharedAccessSignature " ++ separatorsText)) ∧
      Spells separatorsText separators [0xfb, 0xff, 0xbf] 1700000000 := by
  have hsigns : Signs byDevice separators 1700000000 [0xfb, 0xff, 0xbf] separatorsSigned :=
    ⟨runs_query_iff.mpr rfl, List.cons_ne_nil _ _⟩
  have hsigned : ¬ ([0xfb, 0xff, 0xbf] : Bytes).isEmpty = true := by decide
  have hwritten : ofSignature separators 1700000000 [0xfb, 0xff, 0xbf] =
      .ok ("SharedAccessSignature " ++ separatorsText) := by
    rw [ofSignature, if_neg hsigned]
    exact congrArg Except.ok (by decide +kernel)
  obtain ⟨text, hruns, hspells, -⟩ := token_read_uniquely hsigns
  have htext : separatorsText = text :=
    (String.append_right_inj _).mp
      (Except.ok.inj ((hruns _).mp (hsigns.runs_iff.mpr hwritten.symm)))
  exact ⟨hsigns, hsigns.runs_iff.mpr hwritten.symm, htext ▸ hspells⟩

/-! ### A signed text has one reading -/

/-- The characters with the property White_Space, by their codes. -/
def whiteSpace : List Nat :=
  [0x9, 0xa, 0xb, 0xc, 0xd, 0x20, 0x85, 0xa0, 0x1680, 0x2000, 0x2001, 0x2002, 0x2003, 0x2004,
    0x2005, 0x2006, 0x2007, 0x2008, 0x2009, 0x200a, 0x2028, 0x2029, 0x202f, 0x205f, 0x3000]

/-- A text with nothing in it that could end a segment of a path. -/
structure IsSegment (text : String) : Prop where
  nonempty : text ≠ ""
  delimiters : ∀ c ∈ text.toList, c ≠ '/' ∧ c ≠ '?' ∧ c ≠ '#'
  blanks : ∀ c ∈ text.toList, c.toNat ∉ whiteSpace
  controls : ∀ c ∈ text.toList, ¬ (c.toNat ≤ 0x1f ∨ 0x7f ≤ c.toNat ∧ c.toNat ≤ 0x9f)

theorem isBlank_iff {c : Char} : Text.isBlank c = true ↔ c.toNat ∈ whiteSpace := by
  simp only [Text.isBlank, whiteSpace, Bool.or_eq_true, Bool.and_eq_true, decide_eq_true_eq,
    beq_iff_eq, List.mem_cons, List.not_mem_nil, or_false]
  omega

theorem isControl_iff {c : Char} :
    Text.isControl c = true ↔ c.toNat ≤ 0x1f ∨ 0x7f ≤ c.toNat ∧ c.toNat ≤ 0x9f := by
  simp only [Text.isControl, Bool.or_eq_true, Bool.and_eq_true, decide_eq_true_eq]
  omega

theorem isSegmentChar_iff {c : Char} :
    isSegmentChar c = true ↔ (c ≠ '/' ∧ c ≠ '?' ∧ c ≠ '#') ∧ c.toNat ∉ whiteSpace ∧
      ¬ (c.toNat ≤ 0x1f ∨ 0x7f ≤ c.toNat ∧ c.toNat ≤ 0x9f) := by
  rw [← isBlank_iff, ← isControl_iff, isSegmentChar]
  simp only [Bool.not_eq_true', Bool.or_eq_false_iff, beq_eq_false_iff_ne, and_assoc, ne_eq,
    Bool.not_eq_true]

theorem isSegment_iff {text : String} :
    IsSegment text ↔ text.isEmpty = false ∧ text.toList.all isSegmentChar = true := by
  simp only [List.all_eq_true, isSegmentChar_iff]
  constructor
  · rintro ⟨hne, hdelimiters, hblanks, hcontrols⟩
    exact ⟨by simpa using hne, fun c hc ↦ ⟨hdelimiters c hc, hblanks c hc, hcontrols c hc⟩⟩
  · rintro ⟨hne, hchars⟩
    exact ⟨by simpa using hne, fun c hc ↦ (hchars c hc).1, fun c hc ↦ (hchars c hc).2.1,
      fun c hc ↦ (hchars c hc).2.2⟩

instance (text : String) : Decidable (IsSegment text) := decidable_of_iff _ isSegment_iff.symm

theorem scope_accepts_iff {idScope registrationId : String} :
    (∃ resource, scope idScope registrationId = .ok resource) ↔
      IsSegment idScope ∧ IsSegment registrationId := by
  simp only [scope_eq_ok_iff, checkPart_eq_ok_iff, ← isSegment_iff]
  exact ⟨fun ⟨_, hscope, hid, _⟩ ↦ ⟨hscope, hid⟩, fun ⟨hscope, hid⟩ ↦ ⟨_, hscope, hid, rfl⟩⟩

theorem IsSegment.slash_not_mem {text : String} (h : IsSegment text) : '/' ∉ text.toList :=
  fun hc ↦ (h.delimiters _ hc).1 rfl

theorem IsSegment.lineFeed_not_mem {text : String} (h : IsSegment text) : '\n' ∉ text.toList :=
  fun hc ↦ h.controls _ hc (.inl (by decide))

theorem not_mem_decimal {c : Char} (h : c.isDigit = false) (n : Nat) :
    c ∉ (decimal n).toList := by
  intro hc
  exact Bool.false_ne_true (h.symm.trans (isDigit_of_mem_decimal hc))

/-- What stands in a signed text after the last slash, and what stands there before the
expiry. -/
def lastLine (registrationId : String) (expiry : Nat) : List Char :=
  registrationId.toList ++ '\n' :: (decimal expiry).toList

theorem splitOn_lastLine {registrationId : String} (h : IsSegment registrationId) (expiry : Nat) :
    (lastLine registrationId expiry).splitOn '\n' =
      [registrationId.toList, (decimal expiry).toList] :=
  splitOn_append h.lineFeed_not_mem (not_mem_decimal rfl expiry)

/-- A signed text is cut at its slashes into the scope, a fixed word, and the rest. -/
theorem splitOn_signedText {idScope registrationId : String} (hscope : IsSegment idScope)
    (hid : IsSegment registrationId) (expiry : Nat) :
    (idScope ++ "/registrations/" ++ registrationId ++ "\n" ++ decimal expiry).toList.splitOn '/' =
      [idScope.toList, "registrations".toList, lastLine registrationId expiry] := by
  have hlast : '/' ∉ lastLine registrationId expiry := by
    simp [lastLine, hid.slash_not_mem, not_mem_decimal (c := '/') rfl expiry]
  have hparts : ∀ part ∈ [idScope.toList, "registrations".toList, lastLine registrationId expiry],
      '/' ∉ part := by
    simp only [List.forall_mem_cons]
    exact ⟨hscope.slash_not_mem, by decide, hlast, nofun⟩
  rw [← List.splitOn_intercalate '/' hparts (List.cons_ne_nil _ _)]
  congr 1
  simp [List.intercalate, lastLine]

theorem decimal_injective {m n : Nat} (h : decimal m = decimal n) : m = n := by
  have hread := number?_decimal m
  rw [h, number?_decimal n] at hread
  exact (Option.some.inj hread).symm

/-- A resource is signed for that is a path of two segments, and what is signed tells
both of them and the expiry. -/
theorem signed_inputs_identify :
    (∀ idScope registrationId : String,
      ((∃ resource, scope idScope registrationId = .ok resource) ↔
        IsSegment idScope ∧ IsSegment registrationId) ∧
      (¬ (IsSegment idScope ∧ IsSegment registrationId) →
        ∃ fault, scope idScope registrationId = .error (.client fault))) ∧
    ∀ (idScope idScope' registrationId registrationId' resource resource' : String)
      (expiry expiry' : Nat), scope idScope registrationId = .ok resource →
      scope idScope' registrationId' = .ok resource' →
      signingInput resource expiry = signingInput resource' expiry' →
      idScope = idScope' ∧ registrationId = registrationId' ∧ expiry = expiry' := by
  refine ⟨fun idScope registrationId ↦ ⟨scope_accepts_iff, fun hrefused ↦ ?_⟩, ?_⟩
  · cases hresult : scope idScope registrationId with
    | ok resource => exact absurd (scope_accepts_iff.mp ⟨resource, hresult⟩) hrefused
    | error error =>
      obtain ⟨part, rfl | ⟨text, rfl⟩⟩ := fault_of_scope hresult
      · exact ⟨_, rfl⟩
      · exact ⟨_, rfl⟩
  · intro idScope idScope' registrationId registrationId' resource resource' expiry expiry'
      hok hok' hinput
    obtain ⟨hscope, hid⟩ := scope_accepts_iff.mp ⟨resource, hok⟩
    obtain ⟨hscope', hid'⟩ := scope_accepts_iff.mp ⟨resource', hok'⟩
    have htext := Bytes.ofText_injective hinput
    rw [(eq_of_scope hok).1, (eq_of_scope hok').1] at htext
    have hslashes := congrArg (fun s : String ↦ s.toList.splitOn '/') htext
    simp only [splitOn_signedText hscope hid, splitOn_signedText hscope' hid', List.cons.injEq,
      true_and, and_true, String.toList_inj] at hslashes
    obtain ⟨rfl, hlast⟩ := hslashes
    have hlines := congrArg (List.splitOn '\n') hlast
    simp only [splitOn_lastLine hid, splitOn_lastLine hid', List.cons.injEq, and_true,
      String.toList_inj] at hlines
    exact ⟨rfl, hlines.1, decimal_injective hlines.2⟩

theorem signed_inputs_identify_device :
    (IsSegment "0ne" ∧ IsSegment "dévice-1") ∧
      (∃ resource, scope "0ne" "dévice-1" = .ok resource) ∧
      ¬ (IsSegment "0ne/x" ∧ IsSegment "device") ∧
      (∃ fault, scope "0ne/x" "device" = .error (.client fault)) ∧
      scope "0ne" "device" = .ok "0ne/registrations/device" ∧
      signingInput "0ne/registrations/device" 10 = signingInput "0ne/registrations/device" 10 ∧
      ("0ne" = "0ne" ∧ "device" = "device" ∧ 10 = 10) ∧
      signingInput "0ne/registrations/device" 10 ≠ signingInput "0ne/registrations/device1" 0 := by
  have hletters : IsSegment "0ne" ∧ IsSegment "dévice-1" := by decide +kernel
  have hslash : ¬ (IsSegment "0ne/x" ∧ IsSegment "device") := by decide +kernel
  have hdevice : scope "0ne" "device" = .ok "0ne/registrations/device" :=
    scope_eq_ok (by decide +kernel) (by decide +kernel) (by decide +kernel) (by decide +kernel)
  have hdevice1 : scope "0ne" "device1" = .ok "0ne/registrations/device1" :=
    scope_eq_ok (by decide +kernel) (by decide +kernel) (by decide +kernel) (by decide +kernel)
  refine ⟨hletters, (signed_inputs_identify.1 _ _).1.mpr hletters, hslash,
    (signed_inputs_identify.1 _ _).2 hslash, hdevice, rfl,
    signed_inputs_identify.2 _ _ _ _ _ _ _ _ hdevice hdevice rfl, fun hinput ↦ ?_⟩
  have hsame := (signed_inputs_identify.2 _ _ _ _ _ _ _ _ hdevice hdevice1 hinput).2.1
  exact absurd hsame (by decide)

end Enrollment.Token
