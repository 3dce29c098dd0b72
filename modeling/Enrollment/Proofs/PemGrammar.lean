import Mathlib.Data.List.Forall2
import Enrollment.Proofs.PemText
namespace Enrollment.Pem

/-!
# The grammar of PEM texts

A scan goes through a text once, with one block open or none.  What it accepts can be
said without it: between lines that open and close no block stand passages, each closed
by the label it was opened with and with no other boundary inside.  Of the passages only
the wanted ones are looked into, and of these only the lines without a colon.
-/

open Text

/-! ### The lines of a text -/

/-- What a line is, by what it shows between the blanks around it. -/
inductive Line.Reads : List Char → Line → Prop
  | opening {label line : List Char} (h : Padded (boundary openingMark label) line) :
      Reads line (.opening label)
  | closing {label line : List Char} (h : Padded (boundary closingMark label) line) :
      Reads line (.closing label)
  | other {line : List Char} (h : ¬ IsMarker line) : Reads line (.other (trim line))

theorem Line.reads_iff {raw : List Char} {line : Line} :
    Line.Reads raw line ↔ Line.ofTrimmed (trim raw) = line := by
  constructor
  · intro h
    cases h with
    | opening h => exact ofTrimmed_opening h
    | closing h => exact ofTrimmed_closing h
    | other h => exact ofTrimmed_free h
  · rintro rfl
    by_cases h : IsMarker raw
    · obtain ⟨label, hopening | hclosing⟩ := h
      · rw [ofTrimmed_opening hopening]
        exact .opening hopening
      · rw [ofTrimmed_closing hclosing]
        exact .closing hclosing
    · rw [ofTrimmed_free h]
      exact .other h

/-- The text, cut at its line feeds, has these lines. -/
def Reads (text : String) (ls : List Line) : Prop :=
  ∃ raw : List (List Char), raw ≠ [] ∧ (∀ line ∈ raw, '\n' ∉ line) ∧
    text.toList = ['\n'].intercalate raw ∧ List.Forall₂ Line.Reads raw ls

theorem reads_iff {text : String} {ls : List Line} : Reads text ls ↔ lines text = ls := by
  have hline : Line.Reads = fun raw line ↦ Line.ofTrimmed (trim raw) = line := by
    funext raw line
    exact propext Line.reads_iff
  have hkinds (raw : List (List Char)) : List.Forall₂ Line.Reads raw ls ↔ kinds raw = ls := by
    rw [hline, kinds, ← List.forall₂_eq_eq_eq, List.forall₂_map_left_iff]
  simp only [Reads, hkinds]
  constructor
  · rintro ⟨raw, hne, hraw, htext, rfl⟩
    exact lines_of_intercalate hne hraw htext
  · intro h
    refine ⟨Text.lines text.toList, lines_ne_nil _, ?_, (intercalate_lines _).symm, h⟩
    intro line hline
    exact lineFeed_not_mem_of_mem_lines hline

/-! ### The passages of a text -/

deriving instance DecidableEq for Block

/-- A block as it stands in a text: its label, and the lines between its boundaries. -/
structure Passage where
  label : List Char
  inner : List (List Char)
deriving DecidableEq

namespace Passage

/-- What a block is once its lines are joined. -/
def block (p : Passage) : Block := ⟨p.label, bodyOf p.inner⟩

/-- The lines of a passage without a colon, joined, are these bytes in base64. -/
def Encodes (p : Passage) (bytes : Bytes) : Prop :=
  bodyOf p.inner = (Base64.encode bytes).toList

end Passage

/-- The lines are passages, in this order, with other lines before, between and after
them. -/
inductive Sequence : List Line → List Passage → Prop
  | outside (before : List (List Char)) : Sequence (before.map .other) []
  | passage (before : List (List Char)) (p : Passage) {rest : List Line} {ps : List Passage}
      (h : Sequence rest ps) :
      Sequence (before.map .other ++
        .opening p.label :: (p.inner.map .other ++ .closing p.label :: rest)) (p :: ps)

/-- The text is made of these passages and of lines outside. -/
def HasPassages (text : String) (ps : List Passage) : Prop :=
  ∃ ls, Reads text ls ∧ Sequence ls ps

def wantedPassages (wanted : List Char) (ps : List Passage) : List Passage :=
  ps.filter fun p ↦ wanted.isSuffixOf p.label

/-! ### Whatever is scanned is such a sequence -/

theorem Sequence.cons_other {ls : List Line} {ps : List Passage} (h : Sequence ls ps)
    (text : List Char) : Sequence (.other text :: ls) ps := by
  cases h with
  | outside before => exact .outside (text :: before)
  | passage before p h => exact .passage (text :: before) p h

/-- What may follow in a text: with no block open a sequence, with a block open the rest
of its passage and then a sequence. -/
inductive Continues : Option Block → List Line → Prop
  | outside {ls : List Line} {ps : List Passage} (h : Sequence ls ps) : Continues none ls
  | inside {b : Block} (inner : List (List Char)) {rest : List Line} {ps : List Passage}
      (h : Sequence rest ps) : Continues (some b) (inner.map .other ++ .closing b.label :: rest)

/-- One line is read after another; the open block is what the scan knows of the lines
before. -/
theorem continues_of_scan {wanted : List Char} {current : Option Block} {ls : List Line}
    {found : List Bytes} (h : scan wanted current ls = .ok found) : Continues current ls := by
  induction ls generalizing current found with
  | nil =>
    cases current with
    | none => exact .outside (.outside [])
    | some b => cases h
  | cons line ls ih =>
    cases line with
    | opening label =>
      cases current with
      | none =>
        rw [scan] at h
        cases ih h with
        | inside inner hrest => exact .outside (.passage [] ⟨label, inner⟩ hrest)
      | some b => cases h
    | closing label =>
      cases current with
      | none => cases h
      | some b =>
        rw [scan] at h
        split at h
        · next hlabel =>
          simp only [bind_eq_ok_iff] at h
          obtain ⟨-, -, more, hscan, -⟩ := h
          subst hlabel
          cases ih hscan with
          | outside hrest => exact .inside [] hrest
        · cases h
    | other text =>
      cases current with
      | none =>
        rw [scan] at h
        cases ih h with
        | outside hrest => exact .outside (hrest.cons_other text)
      | some b =>
        have hadd : b.add text = ⟨b.label, b.body ++ bodyOf [text]⟩ := foldl_add [text] b
        rw [scan, hadd] at h
        cases ih h with
        | inside inner hrest => exact .inside (text :: inner) hrest

theorem exists_sequence_of_scan {wanted : List Char} {ls : List Line} {found : List Bytes}
    (h : scan wanted none ls = .ok found) : ∃ ps, Sequence ls ps := by
  cases continues_of_scan h with
  | outside hps => exact ⟨_, hps⟩

/-! ### What is found in a sequence -/

/-- The bytes of the wanted ones among these blocks. -/
def decodeAll (wanted : List Char) : List Block → Except Fault (List Bytes)
  | [] => .ok []
  | b :: rest => do
    let bytes ← b.decode wanted
    return bytes ++ (← decodeAll wanted rest)

/-- A scan takes the passages in their order and sees nothing else of the text. -/
theorem scan_of_sequence (wanted : List Char) {ls : List Line} {ps : List Passage}
    (h : Sequence ls ps) : scan wanted none ls = decodeAll wanted (ps.map Passage.block) := by
  induction h with
  | outside before =>
    have hlast := scan_outside wanted before []
    rw [List.append_nil] at hlast
    exact hlast
  | passage before p _ ih =>
    have hbody : p.inner.foldl Block.add ⟨p.label, []⟩ = p.block := foldl_add p.inner _
    have hlabel : p.block.label = p.label := rfl
    rw [scan_outside, scan, scan_inside, hbody, scan, if_pos hlabel, ih]
    rfl

theorem decodeAll_cons_of_not_wanted {wanted : List Char} {b : Block} (h : ¬ wanted <:+ b.label)
    (rest : List Block) : decodeAll wanted (b :: rest) = decodeAll wanted rest := by
  rw [decodeAll, decode_of_not_wanted h]
  cases decodeAll wanted rest <;> rfl

/-- The passages that are not wanted are as good as absent. -/
theorem decodeAll_wantedPassages (wanted : List Char) (ps : List Passage) :
    decodeAll wanted ((wantedPassages wanted ps).map Passage.block) =
      decodeAll wanted (ps.map Passage.block) := by
  induction ps with
  | nil => rfl
  | cons p ps ih =>
    by_cases h : wanted <:+ p.label
    · have hwanted : wantedPassages wanted (p :: ps) = p :: wantedPassages wanted ps :=
        List.filter_cons_of_pos (List.isSuffixOf_iff_suffix.mpr h)
      rw [hwanted, List.map_cons, List.map_cons, decodeAll, decodeAll, ih]
    · have hwanted : wantedPassages wanted (p :: ps) = wantedPassages wanted ps :=
        List.filter_cons_of_neg (mt List.isSuffixOf_iff_suffix.mp h)
      rw [hwanted, ih, List.map_cons, decodeAll_cons_of_not_wanted h]

theorem decode_eq_ok_iff {wanted : List Char} {p : Passage} (h : wanted <:+ p.label)
    {found : List Bytes} :
    p.block.decode wanted = .ok found ↔ ∃ bytes, found = [bytes] ∧ p.Encodes bytes := by
  constructor
  · intro hdecode
    have hwanted : wanted.isSuffixOf p.block.label = true := List.isSuffixOf_iff_suffix.mpr h
    rw [Block.decode, if_pos hwanted] at hdecode
    split at hdecode
    · next bytes hbytes =>
      cases hdecode
      obtain ⟨hbody, -⟩ := Base64.eq_encode_of_decode_ofText hbytes
      refine ⟨bytes, rfl, ?_⟩
      rw [Passage.Encodes, ← hbody]
      exact (String.toList_ofList ..).symm
    · cases hdecode
  · rintro ⟨bytes, rfl, hbody⟩
    rw [Passage.block, hbody, decode_of_wanted h]

theorem decodeAll_eq_ok_iff {wanted : List Char} {ps : List Passage}
    (h : ∀ p ∈ ps, wanted <:+ p.label) {found : List Bytes} :
    decodeAll wanted (ps.map Passage.block) = .ok found ↔
      List.Forall₂ Passage.Encodes ps found := by
  induction ps generalizing found with
  | nil => simp [decodeAll, eq_comm]
  | cons p ps ih =>
    rw [List.forall_mem_cons] at h
    simp only [List.map_cons, decodeAll, bind_eq_ok_iff, decode_eq_ok_iff h.1, ih h.2,
      List.forall₂_cons_left_iff]
    constructor
    · rintro ⟨_, ⟨bytes, rfl, hbytes⟩, more, hmore, hfound⟩
      obtain rfl := Except.ok.inj hfound
      exact ⟨bytes, more, hbytes, hmore, rfl⟩
    · rintro ⟨bytes, more, hbytes, hmore, rfl⟩
      exact ⟨[bytes], ⟨bytes, rfl, hbytes⟩, more, hmore, rfl⟩

theorem blocks_of_passages (wanted : String) {text : String} {ps : List Passage}
    (h : HasPassages text ps) :
    blocks wanted text =
      decodeAll wanted.toList ((wantedPassages wanted.toList ps).map Passage.block) := by
  obtain ⟨ls, hls, hps⟩ := h
  rw [blocks, reads_iff.mp hls, scan_of_sequence _ hps, decodeAll_wantedPassages]

theorem blocks_eq_ok_iff {wanted text : String} {found : List Bytes} :
    blocks wanted text = .ok found ↔ ∃ ps, HasPassages text ps ∧
      List.Forall₂ Passage.Encodes (wantedPassages wanted.toList ps) found := by
  have hsuffix (ps : List Passage) :
      ∀ p ∈ wantedPassages wanted.toList ps, wanted.toList <:+ p.label := by
    intro p hp
    exact List.isSuffixOf_iff_suffix.mp (List.mem_filter.mp hp).2
  constructor
  · intro h
    obtain ⟨ps, hps⟩ := exists_sequence_of_scan h
    have hpassages : HasPassages text ps := ⟨lines text, reads_iff.mpr rfl, hps⟩
    refine ⟨ps, hpassages, ?_⟩
    rw [blocks_of_passages wanted hpassages] at h
    exact (decodeAll_eq_ok_iff (hsuffix ps)).mp h
  · rintro ⟨ps, hpassages, hencodes⟩
    rw [blocks_of_passages wanted hpassages]
    exact (decodeAll_eq_ok_iff (hsuffix ps)).mpr hencodes

/-- The blocks of a text are found if and only if it is made of passages of which every
wanted one holds bytes in base64, and then these are what is found.  Two texts with the
same wanted blocks are read alike, whatever else stands in them. -/
theorem blocks_follow_grammar (wanted text : String) :
    (∀ found, blocks wanted text = .ok found ↔ ∃ ps, HasPassages text ps ∧
        List.Forall₂ Passage.Encodes (wantedPassages wanted.toList ps) found) ∧
      ∀ ps text' ps', HasPassages text ps → HasPassages text' ps' →
        (wantedPassages wanted.toList ps').map Passage.block =
          (wantedPassages wanted.toList ps).map Passage.block →
        blocks wanted text' = blocks wanted text := by
  constructor
  · intro found
    exact blocks_eq_ok_iff
  · intro ps text' ps' h h' hsame
    rw [blocks_of_passages wanted h, blocks_of_passages wanted h', hsame]

/-! ### Two texts with one certificate -/

def leafPassages : List Passage :=
  [⟨"X509 CRL".toList, ["no base64".toList]⟩,
    ⟨"CERTIFICATE".toList, ["Proc-Type: 4".toList, "bGV".toList, "hZg==".toList]⟩]

/-- The certificate in one line and without a header; of the other block only the label
is the same. -/
def bareText : String :=
  "-----BEGIN X509 CRL-----\nYQ\n:\n-----END X509 CRL-----\n" ++
    "-----BEGIN CERTIFICATE-----\nbGVhZg==\n-----END CERTIFICATE-----"

def barePassages : List Passage :=
  [⟨"X509 CRL".toList, ["YQ".toList, ":".toList]⟩, ⟨"CERTIFICATE".toList, ["bGVhZg==".toList]⟩]

theorem hasPassages_leafText : HasPassages leafText leafPassages := by
  refine ⟨_, ?_, .passage ["subject=leaf".toList] _ (.passage [] _ (.outside [[]]))⟩
  apply reads_iff.mpr
  decide +kernel

theorem hasPassages_bareText : HasPassages bareText barePassages := by
  refine ⟨_, ?_, .passage [] _ (.passage [] _ (.outside []))⟩
  apply reads_iff.mpr
  decide +kernel

theorem blocks_follow_grammar_leaf :
    HasPassages leafText leafPassages ∧ HasPassages bareText barePassages ∧
      blocks "CERTIFICATE" leafText = .ok [leafCertificate] ∧
      blocks "CERTIFICATE" bareText = blocks "CERTIFICATE" leafText := by
  have hwanted : wantedPassages "CERTIFICATE".toList leafPassages = leafPassages.drop 1 := by
    decide +kernel
  have hencodes : List.Forall₂ Passage.Encodes (leafPassages.drop 1) [leafCertificate] := by
    apply List.Forall₂.cons
    · unfold Passage.Encodes
      decide +kernel
    · exact .nil
  have hsame : (wantedPassages "CERTIFICATE".toList barePassages).map Passage.block =
      (wantedPassages "CERTIFICATE".toList leafPassages).map Passage.block := by
    decide +kernel
  refine ⟨hasPassages_leafText, hasPassages_bareText, ?_, ?_⟩
  · apply ((blocks_follow_grammar "CERTIFICATE" leafText).1 _).mpr
    exact ⟨leafPassages, hasPassages_leafText, hwanted ▸ hencodes⟩
  · exact (blocks_follow_grammar "CERTIFICATE" leafText).2 leafPassages bareText barePassages
      hasPassages_leafText hasPassages_bareText hsame

end Enrollment.Pem
