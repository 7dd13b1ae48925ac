import PqtlsLab.Audit.Adapter
import PqtlsLab.Policy.ProfileRegistry

/-!
# Which documents are rejected cleanly

`validate_input` asks for an object under `quantum_risk` only if the value there is true, and calls
`get` on it in any case; and it looks two values up in a set without asking whether they can be
hashed. On every other document it returns the document or raises an `InputError`, and what it
returns can be turned into a recommendation.
-/

namespace PqtlsLab.Audit

variable (python : Python)

/-- The member of an object, and `None` for anything that is no object. -/
def member (key : Bytes) : Json → Json
  | .object ms => Dict.get ms key
  | _ => .null

/-- A recommendation is as it should be for a document. -/
structure Recommendation.Sound (document : Json) (r : Recommendation) : Prop where
  /-- The profile is a built-in one with hybrid groups. -/
  profile : ∃ registry p, ProfileRegistry.builtin = .ok registry ∧
    registry.get r.recommendedProfile = .ok p ∧ ∀ group ∈ p.groups, isHybridGroup group = true
  /-- The fallback is forbidden exactly for the two highest levels. -/
  fallback : r.classicalFallbackAllowed = false ↔
    member (ascii "hndl_level") (member (ascii "quantum_risk") document) ∈
      [Json.string (ascii "high"), .string (ascii "critical")]
  nodup_tests : r.requiredTests.Nodup
  baseTests : ∀ test ∈ baseTests, test ∈ r.requiredTests

/-- The adapter deals with a document as it should. -/
structure HandledCleanly (document : Json) : Prop where
  /-- The document is returned or rejected with an `InputError`. -/
  rejects : validateInput python document = .ok document ∨
    ∃ message, validateInput python document = .error (.inputError message)
  /-- There is a recommendation for what is returned. -/
  recommends : validateInput python document = .ok document → ∀ allowExperimental,
    ∃ r, recommend python document allowExperimental = .ok r ∧ r.Sound document

/-- The checks before the one on the risk are passed. -/
def observedPasses (document : Dict) : Bool :=
  (document.get (ascii "schema_version")).equalsOne &&
    ((document.get (ascii "asset_id")).truthy &&
      ((document.get (ascii "tls")).isDict &&
        requiredFields.all fun field =>
          (member field (document.get (ascii "tls"))).truthy))

/-- A level is missing or one of the four. -/
def knownLevel (level : Json) : Bool := level.isOneOf (none :: validLevels.map some)

/-- The value under `quantum_risk` is an object whose levels can be looked up, as far as they are,
or anything else that is true. -/
def riskReadable : Json → Bool
  | .object risk =>
    (Dict.get risk (ascii "hndl_level")).hashable &&
      (!knownLevel (Dict.get risk (ascii "hndl_level")) ||
        (Dict.get risk (ascii "migration_priority")).hashable)
  | risk => risk.truthy

section Checks

/-- No built-in exception ends a computation. -/
def Clean {α : Type} (x : Except Raised α) : Prop := ∀ e, x ≠ .error (.builtin e)

/-- A sequence is clean if its parts are, as far as they are reached. -/
theorem clean_bind_iff {α β : Type} {x : Except Raised α} {f : α → Except Raised β} :
    Clean (x >>= f) ↔ Clean x ∧ ∀ a, x = .ok a → Clean (f a) := by
  cases x with
  | error raised =>
    constructor
    · intro h
      refine ⟨?_, ?_⟩
      · rintro e ⟨⟩
        exact h e rfl
      · rintro a ⟨⟩
    · rintro ⟨h, -⟩ e he
      change Except.error raised = Except.error (.builtin e) at he
      cases he
      exact h e rfl
  | ok a =>
    constructor
    · intro h
      refine ⟨?_, ?_⟩
      · rintro e ⟨⟩
      · rintro _ ⟨⟩
        exact h
    · intro h
      exact h.2 a rfl

/-- An `InputError` is clean. -/
theorem clean_inputError {α : Type} (message : Bytes) :
    Clean (α := α) (.error (.inputError message)) := by
  rintro e ⟨⟩

/-- A result is clean. -/
theorem clean_ok {α : Type} (a : α) : Clean (.ok a) := by
  rintro e ⟨⟩

/-- The loop over the required fields raises nothing but an `InputError`, and ends without one if
all fields are there. -/
theorem requireFields_spec (tls : Dict) (fields : List Bytes) :
    Clean (requireFields tls fields) ∧
      (requireFields tls fields = .ok () ↔
        (fields.all fun field => (tls.get field).truthy) = true) := by
  induction fields with
  | nil => exact ⟨clean_ok (), iff_of_true rfl rfl⟩
  | cons field fields ih =>
    rw [requireFields, List.all_cons]
    cases hfield : (tls.get field).truthy with
    | true => simpa using ih
    | false => exact ⟨clean_inputError _, iff_of_false (fun h => nomatch h) Bool.false_ne_true⟩

/-- The first checks raise nothing but an `InputError`. -/
theorem checkObserved_spec (document : Dict) :
    Clean (checkObserved python document) ∧
      (checkObserved python document = .ok () ↔ observedPasses document = true) := by
  unfold checkObserved observedPasses
  have hrejected : ∀ message, Clean (α := Unit) (.error (.inputError message)) ∧
      ((.error (.inputError message) : Except Raised Unit) = .ok () ↔ false = true) :=
    fun message => ⟨clean_inputError message, iff_of_false (fun h => nomatch h) Bool.false_ne_true⟩
  cases hversion : (document.get (ascii "schema_version")).equalsOne with
  | false => exact hrejected _
  | true =>
    cases hasset : (document.get (ascii "asset_id")).truthy with
    | false => exact hrejected _
    | true =>
      cases htls : document.get (ascii "tls") with
      | object tls => exact requireFields_spec tls requiredFields
      | _ => exact hrejected _

/-- A level is accepted if it is known, and otherwise the exception is an `InputError` if the level
can be looked up. -/
theorem checkLevel_spec (name : Bytes) (level : Json) :
    (Clean (checkLevel python name level) ↔ level.hashable = true) ∧
      (checkLevel python name level = .ok () ↔ knownLevel level = true) := by
  have hunknown : ∀ message, (Clean (α := Unit) (.error (.inputError message)) ↔ true = true) ∧
      ((.error (.inputError message) : Except Raised Unit) = .ok () ↔ false = true) :=
    fun message => ⟨iff_of_true (clean_inputError message) rfl,
      iff_of_false (fun h => nomatch h) Bool.false_ne_true⟩
  have hunhashable : ∀ e, (Clean (α := Unit) (.error (.builtin e)) ↔ false = true) ∧
      ((.error (.builtin e) : Except Raised Unit) = .ok () ↔ false = true) :=
    fun e => ⟨iff_of_false (fun h => h e rfl) Bool.false_ne_true,
      iff_of_false (fun h => nomatch h) Bool.false_ne_true⟩
  cases level with
  | null => exact ⟨iff_of_true (clean_ok ()) rfl, iff_of_true rfl rfl⟩
  | bool b => exact hunknown _
  | int i => exact hunknown _
  | float bits => exact hunknown _
  | string s =>
    have hknown : knownLevel (.string s) = (validLevels.map some).contains (some s) := by
      simp [knownLevel, Json.isOneOf]
    have helement : (Json.string s).isElementOf (validLevels.map some) =
        .ok ((validLevels.map some).contains (some s)) := rfl
    unfold checkLevel
    dsimp only
    rw [hknown, helement]
    cases (validLevels.map some).contains (some s) with
    | true => exact ⟨iff_of_true (clean_ok ()) rfl, iff_of_true rfl rfl⟩
    | false => exact hunknown _
  | array xs => exact hunhashable _
  | object ms => exact hunhashable _

/-- A `dict` is an object. -/
theorem exists_of_isDict {value : Json} (h : value.isDict = true) :
    ∃ fields, value = .object fields := by
  cases value with
  | object fields => exact ⟨fields, rfl⟩
  | _ => cases h

/-- In an object, the two levels are checked one after the other. -/
theorem checkRisk_object (risk : Dict) :
    checkRisk python (.object risk) =
      (checkLevel python (ascii "hndl_level") (risk.get (ascii "hndl_level")) >>= fun _ =>
        checkLevel python (ascii "migration_priority")
          (risk.get (ascii "migration_priority"))) := by
  have hdict : ((Json.object risk).truthy && !(Json.object risk).isDict) = false := by
    rw [Json.isDict, Bool.not_true, Bool.and_false]
  rw [checkRisk, hdict]
  rfl

/-- What is no object is rejected if it is true, and otherwise it has no method `get`. -/
theorem checkRisk_of_not_dict {risk : Json} (h : risk.isDict = false) :
    checkRisk python risk =
      if risk.truthy then
        .error (.inputError (ascii "'quantum_risk' must be an object when present"))
      else .error (.builtin (.attributeError risk.typeName (ascii "get"))) := by
  have hget : getOrRaise (ascii "hndl_level") risk =
      .error (.builtin (.attributeError risk.typeName (ascii "get"))) := by
    cases risk with
    | object risk => cases h
    | _ => rfl
  rw [checkRisk, h, Bool.not_false, Bool.and_true, hget]
  cases risk.truthy with
  | true => rfl
  | false => rfl

/-- The checks on the risk are clean exactly if the risk can be read. -/
theorem clean_checkRisk_iff (risk : Json) :
    Clean (checkRisk python risk) ↔ riskReadable risk = true := by
  cases hdict : risk.isDict with
  | false =>
    have hreadable : riskReadable risk = risk.truthy := by
      cases risk with
      | object risk => cases hdict
      | _ => rfl
    rw [hreadable, checkRisk_of_not_dict python hdict]
    cases risk.truthy with
    | true => exact iff_of_true (clean_inputError _) rfl
    | false => exact iff_of_false (fun h => h _ rfl) Bool.false_ne_true
  | true =>
    obtain ⟨risk, rfl⟩ := exists_of_isDict hdict
    obtain ⟨hlevel, hknown⟩ :=
      checkLevel_spec python (ascii "hndl_level") (Dict.get risk (ascii "hndl_level"))
    obtain ⟨hpriority, -⟩ := checkLevel_spec python (ascii "migration_priority")
      (Dict.get risk (ascii "migration_priority"))
    rw [checkRisk_object, clean_bind_iff, hlevel, riskReadable, Bool.and_eq_true]
    refine and_congr_right fun _ => ?_
    constructor
    · intro hclean
      cases hk : knownLevel (Dict.get risk (ascii "hndl_level")) with
      | false => rfl
      | true => exact hpriority.mp (hclean () (hknown.mpr hk))
    · intro hreadable _ hok
      rw [hknown.mp hok] at hreadable
      exact hpriority.mpr hreadable

/-- Only an object with a known level passes. -/
theorem risk_of_checkRisk {risk : Json} (h : checkRisk python risk = .ok ()) :
    ∃ fields, risk = .object fields ∧ knownLevel (Dict.get fields (ascii "hndl_level")) = true := by
  cases hdict : risk.isDict with
  | false =>
    rw [checkRisk_of_not_dict python hdict] at h
    split at h
    · cases h
    · cases h
  | true =>
    obtain ⟨risk, rfl⟩ := exists_of_isDict hdict
    rw [checkRisk_object] at h
    obtain ⟨_, hlevel, _⟩ := bind_eq_ok_iff.mp h
    exact ⟨risk, rfl, (checkLevel_spec python _ _).2.mp hlevel⟩

/-- The whole check is clean exactly if the risk can be read when it is reached. -/
theorem clean_validateInput_iff (ms : Dict) :
    Clean (validateInput python (.object ms)) ↔
      (observedPasses ms = true → riskReadable (quantumRisk ms) = true) := by
  obtain ⟨hclean, hpasses⟩ := checkObserved_spec python ms
  have hvalidate : validateInput python (.object ms) =
      (checkObserved python ms >>= fun _ => checkRisk python (quantumRisk ms) >>= fun _ =>
        .ok (.object ms)) := rfl
  rw [hvalidate, clean_bind_iff]
  constructor
  · rintro ⟨-, hrest⟩ hobserved
    exact (clean_checkRisk_iff python _).mp (clean_bind_iff.mp (hrest () (hpasses.mpr hobserved))).1
  · intro hreadable
    refine ⟨hclean, fun _ hok => clean_bind_iff.mpr ⟨?_, fun _ _ => clean_ok _⟩⟩
    exact (clean_checkRisk_iff python _).mpr (hreadable (hpasses.mp hok))

end Checks

/-- A member that is not `None` can be read by its key. -/
theorem subscript_of_member {key : Bytes} {value : Json} (h : member key value ≠ .null) :
    value.subscript key = .ok (member key value) := by
  cases value with
  | object ms =>
    rw [Json.subscript, member, Dict.get]
    cases hlookup : ms.lookup key with
    | none => simp [member, Dict.get, hlookup] at h
    | some value => rfl
  | _ => exact absurd rfl h

/-- The text of a known level is one of the two highest exactly if the level is. -/
theorem exposed_iff {fields : Dict}
    (h : knownLevel (Dict.get fields (ascii "hndl_level")) = true) :
    [ascii "high", ascii "critical"].contains
        (python.str ((fields.lookup (ascii "hndl_level")).getD (.string (ascii "medium")))) = true ↔
      Dict.get fields (ascii "hndl_level") ∈
        [Json.string (ascii "high"), .string (ascii "critical")] := by
  rw [Dict.get] at h ⊢
  cases hlookup : fields.lookup (ascii "hndl_level") with
  | none => exact iff_of_false (show ¬ [ascii "high", ascii "critical"].contains
      (ascii "medium") = true by decide) (by simp)
  | some level =>
    rw [hlookup, Option.getD_some] at h
    rw [Option.getD_some, Option.getD_some]
    cases level with
    | null => exact iff_of_false (show ¬ [ascii "high", ascii "critical"].contains
        (ascii "None") = true by decide) (by simp)
    | string s => simp [Python.str]
    | _ => cases h

/-- The recommended profile is a built-in one with hybrid groups. -/
theorem chooseProfile_hybrid (keyExchangeLower : Bytes) :
    ∃ registry p, ProfileRegistry.builtin = .ok registry ∧
      registry.get (chooseProfile keyExchangeLower).1 = .ok p ∧
        ∀ group ∈ p.groups, isHybridGroup group = true := by
  unfold chooseProfile
  split
  · exact ⟨_, _, rfl, rfl, by decide⟩
  · split
    · exact ⟨_, _, rfl, rfl, by decide⟩
    · exact ⟨_, _, rfl, rfl, by decide⟩

/-- The required tests are different, and the basic ones are among them. -/
theorem requiredTests_spec (o : Observed) (allowExperimental : Bool) :
    (o.recommendation python allowExperimental).requiredTests.Nodup ∧
      ∀ test ∈ baseTests, test ∈ (o.recommendation python allowExperimental).requiredTests := by
  have hperm : (o.recommendation python allowExperimental).requiredTests.Perm
      (o.tests python).dedup := List.perm_insertionSort _ _
  constructor
  · exact hperm.nodup_iff.mpr (List.nodup_dedup _)
  · intro test htest
    rw [hperm.mem_iff, List.mem_dedup]
    exact List.mem_append_left _ htest

/-- What `validate_input` returns is its argument. -/
theorem eq_of_validateInput {document value : Json}
    (h : validateInput python document = .ok value) : value = document := by
  cases document with
  | object ms =>
    obtain ⟨_, _, hrest⟩ := bind_eq_ok_iff.mp h
    obtain ⟨_, _, hvalue⟩ := bind_eq_ok_iff.mp hrest
    cases hvalue
    rfl
  | _ => cases h

/-- What `validate_input` returns is an object that has passed the checks. -/
theorem passes_of_validateInput {document : Json}
    (h : validateInput python document = .ok document) :
    ∃ ms fields, document = .object ms ∧ observedPasses ms = true ∧
      quantumRisk ms = .object fields ∧
        knownLevel (Dict.get fields (ascii "hndl_level")) = true := by
  cases document with
  | object ms =>
    obtain ⟨_, hobserved, hrest⟩ := bind_eq_ok_iff.mp h
    obtain ⟨_, hrisk, _⟩ := bind_eq_ok_iff.mp hrest
    obtain ⟨fields, hfields, hknown⟩ := risk_of_checkRisk python hrisk
    exact ⟨ms, fields, rfl, (checkObserved_spec python ms).2.mp hobserved, hfields, hknown⟩
  | _ => cases h

/-- What is true is not `None`. -/
theorem ne_null_of_truthy {value : Json} (h : value.truthy = true) : value ≠ .null := by
  rintro rfl
  cases h

/-- `recommend` can read a document that has passed the checks. -/
theorem observe_eq_ok {ms fields : Dict} (hpasses : observedPasses ms = true)
    (hrisk : quantumRisk ms = .object fields) :
    ∃ o, observe python (.object ms) = .ok o ∧
      o.hndl = python.str
        ((fields.lookup (ascii "hndl_level")).getD (.string (ascii "medium"))) := by
  simp only [observedPasses, Bool.and_eq_true, List.all_eq_true] at hpasses
  obtain ⟨-, hasset, hdict, hfields⟩ := hpasses
  have hfield : ∀ field ∈ requiredFields, (ms.get (ascii "tls")).subscript field =
      .ok (member field (ms.get (ascii "tls"))) := fun field hmem =>
    subscript_of_member (ne_null_of_truthy (hfields field hmem))
  have hasset : (Json.object ms).subscript (ascii "asset_id") = .ok (ms.get (ascii "asset_id")) :=
    subscript_of_member (ne_null_of_truthy hasset)
  have htls : (Json.object ms).subscript (ascii "tls") = .ok (ms.get (ascii "tls")) := by
    apply subscript_of_member
    intro hnull
    rw [show ms.get (ascii "tls") = .null from hnull] at hdict
    cases hdict
  have hrisk : Json.getAttr (ascii "quantum_risk") (.object []) (.object ms) =
      .ok (.object fields) := congrArg Except.ok hrisk
  have hobject : (Json.object fields).orElse (.object []) = .object fields := by
    cases fields with
    | nil => rfl
    | cons field fields => rfl
  refine ⟨{
    assetId := python.str (ms.get (ascii "asset_id"))
    keyExchange := python.str (member (ascii "key_exchange") (ms.get (ascii "tls")))
    certAlgorithm := python.str (member (ascii "certificate_algorithm") (ms.get (ascii "tls")))
    minimumVersion := python.str (member (ascii "minimum_version") (ms.get (ascii "tls")))
    hndl := python.str ((fields.lookup (ascii "hndl_level")).getD (.string (ascii "medium")))
    urgent := (Dict.get fields (ascii "migration_priority")).isOneOf
      [some (ascii "high"), some (ascii "critical")] }, ?_, rfl⟩
  rw [observe, htls, hrisk, hasset]
  dsimp only [bind, Except.bind]
  rw [hobject, hfield _ (by decide), hfield _ (by decide), hfield _ (by decide)]
  rfl

/-- There is a sound recommendation for every document that `validate_input` returns. -/
theorem recommend_of_validateInput {document : Json}
    (h : validateInput python document = .ok document) (allowExperimental : Bool) :
    ∃ r, recommend python document allowExperimental = .ok r ∧ r.Sound document := by
  obtain ⟨ms, fields, rfl, hpasses, hrisk, hknown⟩ := passes_of_validateInput python h
  obtain ⟨o, hobserve, hhndl⟩ := observe_eq_ok python hpasses hrisk
  obtain ⟨hnodup, hbase⟩ := requiredTests_spec python o allowExperimental
  refine ⟨o.recommendation python allowExperimental, ?_, ?_⟩
  · rw [recommend, hobserve]
    rfl
  · refine ⟨chooseProfile_hybrid _, ?_, hnodup, hbase⟩
    have hlevel : member (ascii "hndl_level") (member (ascii "quantum_risk") (.object ms)) =
        Dict.get fields (ascii "hndl_level") := by
      rw [quantumRisk] at hrisk
      rw [member, Dict.get]
      cases hlookup : ms.lookup (ascii "quantum_risk") with
      | none =>
        rw [hlookup] at hrisk
        cases hrisk
        rfl
      | some risk =>
        rw [hlookup] at hrisk
        rw [Option.getD_some, show risk = .object fields from hrisk]
        rfl
    rw [hlevel, ← exposed_iff python hknown, ← hhndl]
    exact (Bool.not_eq_false' o.exposed).to_iff

/-- A document is handled cleanly exactly if a check before the one on the risk fails, or the risk
is missing or can be read. -/
theorem handled_cleanly_iff (document : Json) :
    HandledCleanly python document ↔
      ∀ ms risk, document = .object ms → observedPasses ms = true →
        ms.lookup (ascii "quantum_risk") = some risk → riskReadable risk = true := by
  constructor
  · rintro ⟨hrejects, -⟩ ms risk rfl hpasses hlookup
    have hclean : Clean (validateInput python (.object ms)) := by
      intro e he
      rw [he] at hrejects
      rcases hrejects with hok | ⟨_, herror⟩
      · cases hok
      · cases herror
    have hreadable := (clean_validateInput_iff python ms).mp hclean hpasses
    rwa [quantumRisk, hlookup] at hreadable
  · intro hreadable
    refine ⟨?_, fun h allowExperimental => recommend_of_validateInput python h allowExperimental⟩
    have hclean : Clean (validateInput python document) := by
      cases document with
      | object ms =>
        rw [clean_validateInput_iff]
        intro hpasses
        rw [quantumRisk]
        cases hlookup : ms.lookup (ascii "quantum_risk") with
        | none => rfl
        | some risk => exact hreadable ms risk rfl hpasses hlookup
      | _ => exact clean_inputError _
    cases hvalidate : validateInput python document with
    | ok value =>
      rw [eq_of_validateInput python hvalidate]
      exact .inl rfl
    | error raised =>
      cases raised with
      | inputError message => exact .inr ⟨message, rfl⟩
      | builtin e => exact absurd hvalidate (hclean e)

/-- An audit document with a given value under `quantum_risk`. -/
def documentWithRisk (risk : Json) : Json :=
  .object
    [(ascii "schema_version", .int 1), (ascii "asset_id", .string (ascii "api-gateway")),
      (ascii "tls", .object
        [(ascii "minimum_version", .string (ascii "TLS1.2")),
          (ascii "key_exchange", .string (ascii "X25519")),
          (ascii "certificate_algorithm", .string (ascii "RSA-2048"))]),
      (ascii "quantum_risk", risk)]

/-- A `null` for the risk, and a list for its level, end in a built-in exception. -/
theorem null_risk_not_handled :
    validateInput Python.ofAscii (documentWithRisk .null) =
        .error (.builtin (.attributeError (ascii "NoneType") (ascii "get"))) ∧
      validateInput Python.ofAscii
          (documentWithRisk (.object [(ascii "hndl_level", .array [])])) =
        .error (.builtin (.typeError (ascii "list"))) ∧
      ¬ HandledCleanly Python.ofAscii (documentWithRisk .null) := by
  refine ⟨rfl, rfl, ?_⟩
  rintro ⟨hrejects, -⟩
  rcases hrejects with hok | ⟨_, herror⟩
  · cases hok
  · cases herror

end PqtlsLab.Audit
