import Enrollment.Proofs.PemGrammar
namespace Enrollment

/-!
# Identities with an empty part

An identity that is accepted has a chain of certificates and a key.  Any of these is an
empty byte string exactly when nothing stands in its block but blank lines and headers;
such a block is no fault to the reader.
-/

/-- A client identity no part of which is empty. -/
structure Credential.Whole (c : Credential) : Prop where
  chain : c.chain ≠ []
  certificates : ∀ certificate ∈ c.chain, certificate ≠ []
  key : ∃ key, c.key = some key ∧ key ≠ []

theorem Credential.whole_withClientIdentity_iff {chain : List Bytes} {key : Bytes}
    (h : chain ≠ []) : (withClientIdentity chain key).Whole ↔
      key ≠ [] ∧ ∀ certificate ∈ chain, certificate ≠ [] := by
  constructor
  · rintro ⟨-, hcertificates, key', hkey, hne⟩
    cases hkey
    exact ⟨hne, hcertificates⟩
  · rintro ⟨hne, hcertificates⟩
    exact ⟨h, hcertificates, key, rfl, hne⟩

/-! ### Blank blocks -/

namespace Pem

/-- All lines of a passage are blank or have a colon. -/
def Passage.IsBlank (p : Passage) : Prop := ∀ text ∈ p.inner, text = [] ∨ ':' ∈ text

theorem bodyOf_eq_nil_iff {texts : List (List Char)} :
    bodyOf texts = [] ↔ ∀ text ∈ texts, text = [] ∨ ':' ∈ text := by
  simp only [bodyOf, List.flatten_eq_nil_iff, List.mem_filter, decide_eq_true_eq]
  constructor
  · intro h text htext
    by_cases hcolon : ':' ∈ text
    · exact .inr hcolon
    · exact .inl (h text ⟨htext, hcolon⟩)
  · rintro h text ⟨htext, hcolon⟩
    exact (h text htext).resolve_right hcolon

/-- What stands in a block is empty just when the block is blank. -/
theorem Passage.Encodes.eq_nil_iff {p : Passage} {bytes : Bytes} (h : p.Encodes bytes) :
    bytes = [] ↔ p.IsBlank := by
  rw [IsBlank, ← bodyOf_eq_nil_iff, h]
  constructor
  · rintro rfl
    simp [Base64.encode, Base64.encodeBytes]
  · intro hnil
    by_contra hne
    exact Base64.encode_ne_empty hne (String.toList_eq_nil_iff.mp hnil)

theorem forall_ne_nil_iff {ps : List Passage} {found : List Bytes}
    (h : List.Forall₂ (fun p bytes ↦ bytes = [] ↔ p.IsBlank) ps found) :
    (∀ bytes ∈ found, bytes ≠ []) ↔ ∀ p ∈ ps, ¬ p.IsBlank := by
  induction h with
  | nil => simp
  | cons hfirst _ ih => rw [List.forall_mem_cons, List.forall_mem_cons, ih, ne_eq, hfirst]

/-- The passages of a text stand for what is found in it, one by one, and a blank one for
an empty byte string. -/
theorem exists_passages_of_blocks {wanted text : String} {found : List Bytes}
    (h : blocks wanted text = .ok found) :
    ∃ ps, HasPassages text ps ∧
      List.Forall₂ (fun p bytes ↦ bytes = [] ↔ p.IsBlank) (wantedPassages wanted.toList ps)
        found := by
  obtain ⟨ps, hps, hencodes⟩ := blocks_eq_ok_iff.mp h
  exact ⟨ps, hps, hencodes.imp fun p bytes hp ↦ hp.eq_nil_iff⟩

end Pem

/-! ### What is accepted -/

namespace CertificateDevice

open Pem

variable {registrationId certificates privateKey : String}

theorem blocks_cases (label text : String) :
    (∃ fault, blocks label text = .error (.security (.pem fault))) ∨
      ∃ found, Pem.blocks label text = .ok found ∧ blocks label text = .ok found := by
  unfold blocks
  cases Pem.blocks label text with
  | error fault => exact .inl ⟨fault, rfl⟩
  | ok found => exact .inr ⟨found, rfl, rfl⟩

/-- An identity is refused for a fault of security, or read from the blocks of its two
texts. -/
theorem ofPem_cases (registrationId certificates privateKey : String) :
    (∃ fault, ofPem registrationId certificates privateKey = .error (.security fault)) ∨
      ∃ chain key more, Pem.blocks certificateLabel certificates = .ok chain ∧ chain ≠ [] ∧
        Pem.blocks keyLabel privateKey = .ok (key :: more) ∧
        ofPem registrationId certificates privateKey =
          .ok ⟨registrationId, .withClientIdentity chain key⟩ := by
  rcases blocks_cases certificateLabel certificates with ⟨fault, hchain⟩ | ⟨chain, hfound, hchain⟩
  · left
    refine ⟨.pem fault, ?_⟩
    rw [ofPem, hchain]
    rfl
  cases chain with
  | nil =>
    left
    refine ⟨.noCertificate, ?_⟩
    rw [ofPem, hchain]
    rfl
  | cons first rest =>
    rcases blocks_cases keyLabel privateKey with ⟨fault, hkey⟩ | ⟨keys, hkeys, hkey⟩
    · left
      refine ⟨.pem fault, ?_⟩
      rw [ofPem, hchain, hkey]
      rfl
    cases keys with
    | nil =>
      left
      refine ⟨.noPrivateKey, ?_⟩
      rw [ofPem, hchain, hkey]
      rfl
    | cons key more =>
      have hne : first :: rest ≠ [] := List.cons_ne_nil first rest
      exact .inr ⟨_, key, more, hfound, hne, hkeys, ofPem_of_blocks hfound hne hkeys⟩

/-- Whatever texts an identity is read from, it is refused for a fault of security or has
all its parts, and no part is empty unless its block is blank: that of a certificate, or
that of the first key. -/
theorem identity_whole_unless_blank (registrationId certificates privateKey : String) :
    (∃ error, ofPem registrationId certificates privateKey = .error error ∧
        error.kind = .security) ∨
      ∃ d ps qs first more, ofPem registrationId certificates privateKey = .ok d ∧
        d.registrationId = registrationId ∧ d.credential.hasClientIdentity = true ∧
        HasPassages certificates ps ∧ HasPassages privateKey qs ∧
        wantedPassages keyLabel.toList qs = first :: more ∧
        (d.credential.Whole ↔
          ∀ p ∈ first :: wantedPassages certificateLabel.toList ps, ¬ p.IsBlank) := by
  rcases ofPem_cases registrationId certificates privateKey with
    ⟨fault, hfault⟩ | ⟨chain, key, rest, hchain, hne, hkey, hread⟩
  · exact .inl ⟨_, hfault, rfl⟩
  · right
    obtain ⟨ps, hps, hcertificates⟩ := exists_passages_of_blocks hchain
    obtain ⟨qs, hqs, hkeys⟩ := exists_passages_of_blocks hkey
    obtain ⟨first, more, hfirst, -, hwanted⟩ := List.forall₂_cons_right_iff.mp hkeys
    refine ⟨_, ps, qs, first, more, hread, rfl, ?_, hps, hqs, hwanted, ?_⟩
    · simp [Credential.hasClientIdentity, Credential.withClientIdentity, hne]
    · rw [Credential.whole_withClientIdentity_iff hne, List.forall_mem_cons, ← hfirst,
        forall_ne_nil_iff hcertificates]

/-! ### A certificate that is not there -/

def blankText : String := "-----BEGIN CERTIFICATE-----\n-----END CERTIFICATE-----\n"

/-- A block with no line inside is read as a certificate of no bytes. -/
theorem identity_not_whole_blank :
    ∃ d, ofPem "device" blankText leafKeyText = .ok d ∧ ¬ d.credential.Whole := by
  have hchain : Pem.blocks certificateLabel blankText = .ok [[]] := by decide +kernel
  have hkey : Pem.blocks keyLabel leafKeyText = .ok [leafKey] := by decide +kernel
  refine ⟨_, ofPem_of_blocks hchain (by simp) hkey, ?_⟩
  intro h
  exact h.certificates [] List.mem_cons_self rfl

end CertificateDevice
end Enrollment
