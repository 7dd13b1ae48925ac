import PqtlsLab.Foundation.Python
import Mathlib.Data.List.Dedup
import Mathlib.Data.List.Sort

/-!
# The adapter for audit documents

`pqaudit_adapter.py` reads a JSON document that describes the TLS configuration of an asset, checks
it with `validate_input`, and recommends a profile, a policy for the classical fallback and a list
of tests. The document can have any value in any place.
-/

namespace PqtlsLab.Audit

variable (python : Python)

/-- What `validate_input` raises: an `InputError` of its own, or a built-in exception. -/
inductive Raised where
  | inputError (message : Bytes)
  | builtin (e : BuiltinError)
  deriving DecidableEq

/-- `VALID_HNDL_LEVELS` and `VALID_PRIORITIES`. -/
def validLevels : List Bytes := [ascii "low", ascii "medium", ascii "high", ascii "critical"]

/-- `BASE_TESTS`. -/
def baseTests : List Bytes :=
  [ascii "certificate-validation", ascii "mtu", ascii "packet-loss",
    ascii "legacy-client-compatibility"]

/-- The loop of `validate_input` over the required fields of `tls`. -/
def requireFields (tls : Dict) : List Bytes → Except Raised Unit
  | [] => .ok ()
  | required :: rest =>
    if (tls.get required).truthy then requireFields tls rest
    else .error (.inputError (ascii "'tls." ++ required ++ ascii "' is required"))

/-- The fields of `tls` that `validate_input` requires. -/
def requiredFields : List Bytes :=
  [ascii "minimum_version", ascii "key_exchange", ascii "certificate_algorithm"]

/-- The checks of `validate_input` on the version, the asset and the observed configuration. -/
def checkObserved (document : Dict) : Except Raised Unit :=
  if !(document.get (ascii "schema_version")).equalsOne then
    .error (.inputError (ascii "unsupported schema_version " ++
      python.repr (document.get (ascii "schema_version")) ++
      ascii "; this adapter understands version 1"))
  else if !(document.get (ascii "asset_id")).truthy then
    .error (.inputError (ascii "'asset_id' is required"))
  else
    match document.get (ascii "tls") with
    | .object tls => requireFields tls requiredFields
    | _ => .error (.inputError
        (ascii "'tls' must be an object describing the observed configuration"))

/-- `level is not None and level not in VALID_LEVELS`, and the error if it holds. -/
def checkLevel (name : Bytes) (level : Json) : Except Raised Unit :=
  match level with
  | .null => .ok ()
  | level =>
    match level.isElementOf (validLevels.map some) with
    | .error e => .error (.builtin (.typeError e.typeName))
    | .ok true => .ok ()
    | .ok false => .error (.inputError (ascii "unknown quantum_risk." ++ name ++ ascii " " ++
        python.repr level ++
        ascii "; expected one of ['critical', 'high', 'low', 'medium']"))

/-- `value.get(key)` in `validate_input`. -/
def getOrRaise (key : Bytes) (value : Json) : Except Raised Json :=
  match Json.getAttr key .null value with
  | .error e => .error (.builtin e)
  | .ok value => .ok value

/-- The checks of `validate_input` on the risk. -/
def checkRisk (risk : Json) : Except Raised Unit := do
  if risk.truthy && !risk.isDict then
    throw (.inputError (ascii "'quantum_risk' must be an object when present"))
  checkLevel python (ascii "hndl_level") (← getOrRaise (ascii "hndl_level") risk)
  checkLevel python (ascii "migration_priority") (← getOrRaise (ascii "migration_priority") risk)

/-- `document.get("quantum_risk", {})`. -/
def quantumRisk (document : Dict) : Json :=
  (document.lookup (ascii "quantum_risk")).getD (.object [])

/-- `validate_input`. -/
def validateInput (document : Json) : Except Raised Json :=
  match document with
  | .object ms => do
    checkObserved python ms
    checkRisk python (quantumRisk ms)
    return document
  | _ => .error (.inputError (ascii "the input must be a JSON object"))

/-- `Recommendation`. -/
structure Recommendation where
  assetId : Bytes
  recommendedProfile : Bytes
  currentAuthentication : Bytes
  recommendedInitialAuthentication : Bytes
  recommendedExperimentalAuthentication : Bytes
  classicalFallbackAllowed : Bool
  requiredTests : List Bytes
  rationale : List Bytes
  caveats : List Bytes
  deriving DecidableEq

/-- The profile for a key exchange in lower case, with the reason for it. -/
def chooseProfile (keyExchangeLower : Bytes) : Bytes × Bytes :=
  if Python.isIn (ascii "p-384") keyExchangeLower ||
      Python.isIn (ascii "secp384") keyExchangeLower then
    (ascii "hybrid-p384-mlkem1024",
      ascii "the asset already uses a P-384 key exchange, so the P-384 + ML-KEM-1024 hybrid " ++
        ascii "keeps the classical component at the security level already in use")
  else if Python.isIn (ascii "p-256") keyExchangeLower ||
      Python.isIn (ascii "secp256") keyExchangeLower then
    (ascii "hybrid-p256-mlkem768",
      ascii "the asset uses a NIST P-256 key exchange, so the P-256 + ML-KEM-768 hybrid is the " ++
        ascii "smallest change from the current configuration")
  else
    (ascii "hybrid-x25519-mlkem768",
      ascii "no specific curve family was indicated, so the primary X25519 + ML-KEM-768 profile " ++
        ascii "is recommended as the default hybrid")

/-- The texts that `recommend` reads from a document, and whether the migration is urgent. -/
structure Observed where
  assetId : Bytes
  keyExchange : Bytes
  certAlgorithm : Bytes
  minimumVersion : Bytes
  hndl : Bytes
  urgent : Bool

namespace Observed

/-- `"rsa" in cert_algorithm.lower()`. -/
def usesRsa (o : Observed) : Bool := Python.isIn (ascii "rsa") (python.lower o.certAlgorithm)

/-- `hndl in ("high", "critical")`. -/
def exposed (o : Observed) : Bool := [ascii "high", ascii "critical"].contains o.hndl

/-- `minimum_version not in ("TLS1.3", "TLSv1.3")`. -/
def permitsOlder (o : Observed) : Bool :=
  !([ascii "TLS1.3", ascii "TLSv1.3"].contains o.minimumVersion)

/-- `recommended_initial`. -/
def recommendedInitial (profile : Bytes) : Bytes :=
  if profile == ascii "hybrid-p384-mlkem1024" then ascii "ECDSA-P384" else ascii "ECDSA-P256"

/-- The tests in the order in which they are appended. -/
def tests (o : Observed) : List Bytes :=
  baseTests ++
  ((if o.usesRsa python then [ascii "certificate-rollover"] else []) ++
  ((if o.exposed then [ascii "downgrade-rejection"] else []) ++
  ((if o.permitsOlder then [ascii "tls12-client-inventory"] else []) ++
  (if o.urgent then [ascii "concurrency", ascii "latency"] else []))))

/-- The rationale in the order in which it is appended. -/
def rationale (o : Observed) (choice : Bytes × Bytes) : List Bytes :=
  choice.2 ::
  ((if o.usesRsa python then
      [ascii "the current certificate uses " ++ o.certAlgorithm ++ ascii "; moving to " ++
        recommendedInitial choice.1 ++ ascii " reduces handshake size, which partly offsets " ++
        ascii "the larger post-quantum key share"]
    else []) ++
  ((if o.exposed then
      [ascii "harvest-now-decrypt-later exposure is '" ++ o.hndl ++
        ascii "', so classical fallback is disallowed: " ++
        ascii "a connection that falls back is exactly the one an attacker would record"]
    else
      [ascii "harvest-now-decrypt-later exposure is '" ++ o.hndl ++
        ascii "', so a classical fallback is " ++
        ascii "tolerable during migration; revisit once client coverage is known"]) ++
  (if o.permitsOlder then
      [ascii "the asset currently permits " ++ o.minimumVersion ++
        ascii "; every pqtls-lab profile is TLS 1.3 " ++
        ascii "only, so TLS 1.2 clients will need to be identified first"]
    else [])))

/-- The caveats in the order in which they are appended. -/
def caveats (o : Observed) (allowExperimental : Bool) : List Bytes :=
  (ascii "This recommendation changes KEY ESTABLISHMENT only. Authentication stays classical, " ++
    ascii "so the asset is protected against harvest-now-decrypt-later but is NOT protected " ++
    ascii "against an adversary with a quantum computer who is able to forge signatures at " ++
    ascii "connection time.") ::
  (if o.exposed then
    ascii "With fallback disabled, clients that do not support the hybrid group will FAIL to " ++
    ascii "connect rather than downgrade. Run the legacy-client-compatibility test and plan the " ++
    ascii "client rollout before enforcing this."
  else
    ascii "Classical fallback is permitted here. Any connection that falls back provides NO " ++
    ascii "post-quantum protection, and the results must not be reported as if it did.") ::
  (if allowExperimental then []
  else
    [ascii "ML-DSA-65 is listed as the experimental authentication target only. It is " ++
      ascii "capability-gated in pqtls-lab, has no public CA support, and must not be treated " ++
      ascii "as a deployment option."])

/-- What `recommend` makes of the texts. -/
def recommendation (o : Observed) (allowExperimental : Bool) : Recommendation :=
  let choice := chooseProfile (python.lower o.keyExchange)
  { assetId := o.assetId
    recommendedProfile := choice.1
    currentAuthentication := o.certAlgorithm
    recommendedInitialAuthentication := recommendedInitial choice.1
    recommendedExperimentalAuthentication := ascii "ML-DSA-65"
    classicalFallbackAllowed := !o.exposed
    requiredTests := (o.tests python).dedup.insertionSort (· ≤ ·)
    rationale := o.rationale python choice
    caveats := o.caveats allowExperimental }

end Observed

/-- What `recommend` reads from a document. -/
def observe (document : Json) : Except BuiltinError Observed := do
  let tls ← document.subscript (ascii "tls")
  let risk ← Json.getAttr (ascii "quantum_risk") (.object []) document
  let risk := risk.orElse (.object [])
  let assetId ← document.subscript (ascii "asset_id")
  let keyExchange ← tls.subscript (ascii "key_exchange")
  let certAlgorithm ← tls.subscript (ascii "certificate_algorithm")
  let minimumVersion ← tls.subscript (ascii "minimum_version")
  let hndl ← Json.getAttr (ascii "hndl_level") (.string (ascii "medium")) risk
  let priority ← Json.getAttr (ascii "migration_priority") .null risk
  return {
    assetId := python.str assetId
    keyExchange := python.str keyExchange
    certAlgorithm := python.str certAlgorithm
    minimumVersion := python.str minimumVersion
    hndl := python.str hndl
    urgent := priority.isOneOf [some (ascii "high"), some (ascii "critical")] }

/-- `recommend`. -/
def recommend (document : Json) (allowExperimental : Bool) :
    Except BuiltinError Recommendation := do
  let o ← observe python document
  return o.recommendation python allowExperimental

end PqtlsLab.Audit
