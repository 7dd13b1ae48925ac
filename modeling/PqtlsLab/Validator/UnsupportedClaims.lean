import PqtlsLab.Validator.ResultValidator

/-!
# Which claims the validator lets through

`semantic_check` compares the claims of a record with the group and the authentication that the
record names. Both comparisons are made only if something is named, and only a record of success
has to name a group.
-/

namespace PqtlsLab.Validator

/-- The record has a value under some key, and the value is not the empty text. -/
def Given (record : Dict) (key : Bytes) : Prop :=
  ∃ value, record.lookup key = some value ∧ value ≠ .string []

/-- Each claim of a record is supported by what the record names. -/
structure Supported (python : Python) (record : Dict) : Prop where
  pq : (record.get (ascii "pq_key_establishment")).isTrue = true →
    loweredText python record (ascii "negotiated_group") ∈ pqGroups
  hybrid : (record.get (ascii "hybrid_key_establishment")).isTrue = true →
    loweredText python record (ascii "negotiated_group") ∈ hybridGroups
  pqAuthentication : (record.get (ascii "pq_authentication")).isTrue = true →
    (∃ value, record.lookup (ascii "authentication") = some value) ∧
      hasSignatureMarker (loweredText python record (ascii "authentication")) = true

/-- A value gives a text exactly when it is present and is not the empty text. -/
theorem loweredText_ne_nil_iff (python : Python) {record : Dict} {key : Bytes} :
    loweredText python record key ≠ [] ↔ Given record key := by
  rw [loweredText, ne_eq, python.lower_eq_nil_iff, python.str_eq_nil_iff, Given]
  cases record.lookup key with
  | none => simp
  | some value => simp

/-- A record without problems supports its claims if and only if a record that claims
post-quantum key establishment names a group and a record that claims post-quantum
authentication names an authentication. -/
theorem semantic_check_supports_iff (python : Python) (record : Dict)
    (h : semanticCheck python record = []) :
    Supported python record ↔
      ((record.get (ascii "pq_key_establishment")).isTrue = true →
          Given record (ascii "negotiated_group")) ∧
        ((record.get (ascii "pq_authentication")).isTrue = true →
          Given record (ascii "authentication")) := by
  obtain ⟨-, hgroup, himplied, hauth, -⟩ := semanticCheck_eq_nil_iff.mp h
  constructor
  · intro hsupported
    constructor
    · intro hpq
      rw [← loweredText_ne_nil_iff python]
      intro hempty
      have hmem := hsupported.pq hpq
      rw [hempty] at hmem
      exact absurd hmem (by decide)
    · intro hpq
      rw [← loweredText_ne_nil_iff python]
      intro hempty
      have hmarker := (hsupported.pqAuthentication hpq).2
      rw [hempty] at hmarker
      exact absurd hmarker (by decide)
  · rintro ⟨hnamed, hauthNamed⟩
    have hproblems (hpq : (record.get (ascii "pq_key_establishment")).isTrue = true) :=
      groupProblems_eq_nil_iff.mp (hgroup ((loweredText_ne_nil_iff python).mpr (hnamed hpq)))
    refine ⟨fun hpq => (hproblems hpq).1 hpq,
      fun hhybrid => (hproblems (himplied hhybrid)).2.2 hhybrid, fun hpq => ?_⟩
    obtain ⟨value, hvalue, hne⟩ := hauthNamed hpq
    exact ⟨⟨value, hvalue⟩, hauth hpq ((loweredText_ne_nil_iff python).mpr ⟨value, hvalue, hne⟩)⟩

/-- A record of a hybrid connection. -/
def hybridRecord : Dict :=
  [(ascii "success", .bool true), (ascii "tls_version", .string (ascii "TLSv1.3")),
    (ascii "negotiated_group", .string (ascii "X25519MLKEM768")),
    (ascii "pq_key_establishment", .bool true), (ascii "hybrid_key_establishment", .bool true)]

/-- A record of a hybrid connection supports its claims. -/
theorem semantic_check_supports_hybrid :
    semanticCheck .ofAscii hybridRecord = [] ∧ Supported .ofAscii hybridRecord := by
  have hclean : semanticCheck .ofAscii hybridRecord = [] := by decide +kernel
  refine ⟨hclean, (semantic_check_supports_iff _ _ hclean).mpr ⟨fun _ => ?_, fun hpq => ?_⟩⟩
  · exact ⟨.string (ascii "X25519MLKEM768"), rfl, fun h => absurd (Json.string.inj h) (by decide)⟩
  · exact absurd hpq (by decide)

/-- A failed record that names no group may claim post-quantum key establishment. -/
theorem unsupported_claim_passes :
    ¬ ∀ (python : Python) (record : Dict), semanticCheck python record = [] →
      Supported python record := by
  intro h
  have hsupported := h .ofAscii
    [(ascii "success", .bool false), (ascii "pq_key_establishment", .bool true)]
    (by decide +kernel)
  exact absurd (hsupported.pq rfl) (by decide)

end PqtlsLab.Validator
