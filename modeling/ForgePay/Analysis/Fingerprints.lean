import ForgePay.Analysis.Handlers
import ForgePay.Analysis.Histories
import ForgePay.Library.JsonEquality

/-!
# Fingerprints

The fingerprint of a payload is a digest of its canonical text.  Where the digest has no
collisions, two payloads have one fingerprint exactly when they are the same JSON value up to the
order of the keys, and `claim_idempotency` accepts a key again exactly for the same payload
(`fingerprints_identify`).
-/

set_option autoImplicit false

namespace ForgePay

open Transactions
open Py (Json)

/-- The bytes `canonical_fingerprint` digests. -/
def canonicalText (payload : Json) : List Py.Byte :=
  Py.encode ((payload.sortKeys (fun k => k)).dumps .compact)

/-- Payloads have one canonical text exactly when they are the same. -/
theorem canonicalText_eq_iff {p q : Json} (hp : p.Plain) (hq : q.Plain) :
    canonicalText p = canonicalText q ↔ p.Same q := by
  have hp' : (p.sortKeys (fun k => k)).Plain := Py.plain_sortKeys p hp
  have hq' : (q.sortKeys (fun k => k)).Plain := Py.plain_sortKeys q hq
  rw [← @Py.sortKeys_eq_iff _ _ (fun k : Py.Str => k) Function.injective_id _ _ hp hq]
  constructor
  · intro h
    have htext := Py.encode_injective (Py.isAscii_dumps Py.spaced_compact _)
      (Py.isAscii_dumps Py.spaced_compact _) h
    exact Py.dumps_injective Py.spaced_compact hp' hq' htext
  · intro h
    unfold canonicalText
    rw [h]

/-- `claim_idempotency` on a key that has a record. -/
theorem outcome_claimIdempotency_taken {db : Database} {merchantId : UUID}
    {key fingerprint : String} {record : IdempotencyRecord} (hkey : IsVarchar 100 key)
    (hfingerprint : IsVarchar 64 fingerprint)
    (hrecord : db.idempotencyRecords.get? (key, merchantId) = some record) :
    (outcome postgres (claimIdempotency merchantId key fingerprint) db).1 =
      if record.requestFingerprint = fingerprint then .committed record
      else .rolledBack (.error
        (.idempotencyConflictError "same idempotency key used with a different payload")) := by
  have his := is_claimIdempotency_taken hkey hfingerprint hrecord
  by_cases hsame : record.requestFingerprint = fingerprint
  · rw [if_neg (not_not.mpr hsame)] at his
    rw [if_pos hsame, outcome_of_returned postgres his rfl]
  · rw [if_pos hsame] at his
    rw [if_neg hsame, outcome_of_is_error postgres his]

/-- **Fingerprints identify requests**: on texts where SHA-256 has no collisions, payloads have one
fingerprint exactly when they are the same up to the order of the keys, and a key that has a
record of one is accepted for the other exactly then. -/
theorem fingerprints_identify (lib : Libraries) (texts : Set (List Py.Byte))
    (hcollisions : Set.InjOn lib.sha256 texts) (p q : Json) (hp : p.Plain) (hq : q.Plain)
    (hptext : canonicalText p ∈ texts) (hqtext : canonicalText q ∈ texts) :
    (canonicalFingerprint lib p = canonicalFingerprint lib q ↔ p.Same q) ∧
    ∀ (db : Database) (merchantId : UUID) (key : String) (record : IdempotencyRecord),
      IsVarchar 100 key → db.idempotencyRecords.get? (key, merchantId) = some record →
      record.requestFingerprint = canonicalFingerprint lib q →
      (p.Same q → (outcome postgres
        (claimIdempotency merchantId key (canonicalFingerprint lib p)) db).1 =
          .committed record) ∧
      (¬ p.Same q → (outcome postgres
        (claimIdempotency merchantId key (canonicalFingerprint lib p)) db).1 =
          .rolledBack (.error
            (.idempotencyConflictError "same idempotency key used with a different payload"))) := by
  have hiff : canonicalFingerprint lib p = canonicalFingerprint lib q ↔ p.Same q := by
    rw [← canonicalText_eq_iff hp hq]
    constructor
    · intro h
      exact hcollisions hptext hqtext h
    · intro h
      exact congrArg lib.sha256 h
  refine ⟨hiff, ?_⟩
  intro db merchantId key record hkey hrecord hfingerprint
  have houtcome := outcome_claimIdempotency_taken hkey (isVarchar_canonicalFingerprint lib p) hrecord
  rw [hfingerprint] at houtcome
  constructor
  · intro hsame
    rw [houtcome, if_pos (hiff.mpr hsame).symm]
  · intro hsame
    rw [houtcome, if_neg (fun h => hsame (hiff.mp h.symm))]

/-- The payload of the sample creation. -/
def samplePayload : Json :=
  .obj [(Py.str "amount_minor", .int 500), (Py.str "currency", .text "EUR"),
    (Py.str "customer_id", .text "00000000-0000-4000-8000-000000000010")]

/-- The payload of the sample creation, with its keys in another order. -/
def samplePayloadReordered : Json :=
  .obj [(Py.str "customer_id", .text "00000000-0000-4000-8000-000000000010"),
    (Py.str "currency", .text "EUR"), (Py.str "amount_minor", .int 500)]

/-- The sample payloads are plain. -/
theorem plain_samplePayload : samplePayload.Plain ∧ samplePayloadReordered.Plain := by
  have hdigits : (Py.decimal (500 : ℤ).natAbs).length ≤ Py.intMaxStrDigits := by decide
  have hcurrency : (Json.text "EUR").Plain := Py.isScalar_str "EUR"
  have hcustomer : (Json.text "00000000-0000-4000-8000-000000000010").Plain :=
    Py.isScalar_str "00000000-0000-4000-8000-000000000010"
  constructor
  · rw [samplePayload, Json.Plain]
    refine ⟨by decide, ?_⟩
    rw [Py.plainFields, Py.plainFields, Py.plainFields, Py.plainFields]
    exact ⟨Py.isScalar_str _, hdigits, Py.isScalar_str _, hcurrency, Py.isScalar_str _, hcustomer, trivial⟩
  · rw [samplePayloadReordered, Json.Plain]
    refine ⟨by decide, ?_⟩
    rw [Py.plainFields, Py.plainFields, Py.plainFields, Py.plainFields]
    exact ⟨Py.isScalar_str _, hcustomer, Py.isScalar_str _, hcurrency, Py.isScalar_str _, hdigits, trivial⟩

/-- The sample payloads differ in their order only. -/
theorem samplePayload_same : samplePayload.Same samplePayloadReordered := by
  rw [samplePayload, samplePayloadReordered, Json.Same]
  refine ⟨rfl, ?_⟩
  have htext : ∀ t : String, (Json.text t).Same (.text t) := by
    intro t
    rw [Json.text, Json.Same]
  have hint : (Json.int 500).Same (.int 500) := by rw [Json.Same]
  rw [Py.sameFields, Py.sameFields, Py.sameFields, Py.sameFields]
  exact ⟨⟨_, rfl, hint⟩, ⟨_, rfl, htext _⟩, ⟨_, rfl, htext _⟩, trivial⟩

/-- The fingerprint of the sample creation does not depend on the order of its keys. -/
theorem fingerprints_identify_samplePayload :
    canonicalFingerprint sampleLibraries samplePayload =
      canonicalFingerprint sampleLibraries samplePayloadReordered := by
  have htext : canonicalText samplePayloadReordered = canonicalText samplePayload :=
    ((canonicalText_eq_iff plain_samplePayload.1 plain_samplePayload.2).mpr
      samplePayload_same).symm
  exact (fingerprints_identify sampleLibraries {canonicalText samplePayload}
    (Set.injOn_singleton _ _) samplePayload samplePayloadReordered plain_samplePayload.1
    plain_samplePayload.2 rfl htext).1.mpr samplePayload_same

end ForgePay
