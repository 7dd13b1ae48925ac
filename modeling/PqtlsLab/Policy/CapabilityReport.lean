import PqtlsLab.Policy.Capabilities
import Mathlib.Data.List.Forall2

/-!
# What the capability report says

`detect` asks OpenSSL about the names in two tables and looks the names of a profile up in the
answers, groups without regard to case and cipher suites exactly. A name that OpenSSL knows but the
tables do not is reported as missing. The report is therefore right about a profile exactly if the
tables have every name of the profile that OpenSSL accepts.
-/

namespace PqtlsLab

/-- An OpenSSL that is described by the names it knows. -/
structure OpenSslNames where
  /-- The name of a supported group. -/
  group : Bytes → Bool
  /-- Names of groups are compared without regard to ASCII case. -/
  group_case : ∀ a b, iequals a b = true → group a = group b
  /-- The name of a supported cipher suite. -/
  suite : Bytes → Bool
  tls13 : Bool
  mldsa : Bool

/-- OpenSSL answers by the names it knows: a list is accepted exactly when each of its names is. -/
structure OpenSsl.AnswersBy (ssl : OpenSsl) (known : OpenSslNames) : Prop where
  initialized : ssl.initialized = true
  clientContext : ssl.clientContext = true
  tls13 : (ssl.setMinProtoVersion && ssl.setMaxProtoVersion) = known.tls13
  groups : ∀ text, ssl.setGroupsList text = (text.splitOn colon).all known.group
  suites : ∀ text, ssl.setCiphersuites text = (text.splitOn colon).all known.suite
  mldsa : ssl.supportsMlDsa65 = known.mldsa

/-- The OpenSSL that answers by some names. -/
def OpenSslNames.openSsl (known : OpenSslNames) : OpenSsl where
  initialized := true
  clientContext := true
  serverContext := true
  setMinProtoVersion := known.tls13
  setMaxProtoVersion := known.tls13
  setGroupsList text := (text.splitOn colon).all known.group
  setCiphersuites text := (text.splitOn colon).all known.suite
  setAlpnProtos := true
  supportsMlDsa65 := known.mldsa
  useCertificateChainFile _ := true
  usePrivateKeyFile _ := true
  checkPrivateKey _ _ := true
  loadVerifyFile _ := true
  setDefaultVerifyPaths := true
  openKeylog _ := true

/-- It does answer by them. -/
theorem OpenSslNames.answersBy (known : OpenSslNames) : known.openSsl.AnswersBy known where
  initialized := rfl
  clientContext := rfl
  tls13 := Bool.and_self known.tls13
  groups _ := rfl
  suites _ := rfl
  mldsa := rfl

/-- `openssl_supports_group`. -/
def opensslSupportsGroup (ssl : OpenSsl) (group : Bytes) : Except Thrown Bool :=
  if !ssl.initialized then .error (internalError (ascii "OpenSSL initialisation failed"))
  else if !ssl.clientContext then .ok false
  else .ok (ssl.setGroupsList (cString group))

/-- The report is right about a profile. -/
structure ProfileAvailability.Truthful (ssl : OpenSsl) (p : SecurityProfile)
    (a : ProfileAvailability) : Prop where
  profile : a.profileId = p.id
  /-- It is usable exactly if everything it asks for is available. -/
  usable : a.usable = true ↔
    (ssl.setMinProtoVersion && ssl.setMaxProtoVersion) = true ∧
      (∀ group ∈ p.groups, opensslSupportsGroup ssl group = .ok true) ∧
      (∀ suite ∈ p.cipherSuites, ssl.setCiphersuites (cString suite) = true) ∧
      (p.authentication = .mlDsa65 → ssl.supportsMlDsa65 = true)
  /-- The groups that are missing are those that are not supported. -/
  missingGroups : a.missingGroups = p.groups.filter fun group =>
    decide (opensslSupportsGroup ssl group ≠ .ok true)
  /-- The cipher suites that are missing are those that are not accepted. -/
  missingCipherSuites : a.missingCipherSuites = p.cipherSuites.filter fun suite =>
    !ssl.setCiphersuites (cString suite)
  /-- There is a reason exactly if it is not usable. -/
  blockingReason : a.blockingReason = [] ↔ a.usable = true

/-- The names of a profile that OpenSSL accepts are among those that `detect` asks about. -/
def NamesProbed (ssl : OpenSsl) (p : SecurityProfile) : Prop :=
  (∀ group ∈ p.groups, ssl.setGroupsList (cString group) = true →
      ∃ known ∈ kCandidateGroups, iequals known group = true) ∧
    ∀ suite ∈ p.cipherSuites, ssl.setCiphersuites (cString suite) = true →
      suite ∈ kCandidateCipherSuites

/-- Entries are found if they are accepted and listed. The entries that are not found are those that
are not accepted exactly if all accepted entries are listed. -/
theorem filter_not_found_eq_iff {l : List Bytes} {found accepted : Bytes → Bool}
    {listed : Bytes → Prop} (h : ∀ a, found a = true ↔ accepted a = true ∧ listed a) :
    ((l.filter fun a => !found a) = l.filter fun a => !accepted a) ↔
      ∀ a ∈ l, accepted a = true → listed a := by
  constructor
  · intro heq a ha haccepted
    by_contra hlisted
    have hfound : found a = false := by
      rw [← Bool.not_eq_true, h a]
      exact fun hboth => hlisted hboth.2
    have hmem : a ∈ l.filter fun a => !accepted a := by
      rw [← heq]
      simp [ha, hfound]
    simp [haccepted] at hmem
  · intro hall
    apply List.filter_congr
    intro a ha
    have hsame : found a = accepted a := by
      rw [Bool.eq_iff_iff, h a]
      exact ⟨And.left, fun haccepted => ⟨haccepted, hall a ha haccepted⟩⟩
    rw [hsame]

/-- A text without a zero byte is read to its end. -/
theorem cString_eq_self {text : Bytes} (h : 0 ∉ text) : cString text = text := by
  have hread := cString_of_not_mem h []
  rwa [List.append_nil, show cString [] = [] from rfl, List.append_nil] at hread

/-- A text without a separator is a list of one name. -/
theorem splitOn_of_not_mem {separator : UInt8} {text : Bytes} (h : separator ∉ text) :
    text.splitOn separator = [text] := by
  have hjoin : join [text] separator = text := by simp [join, List.intercalate]
  have hsplit := (splitOn_join_iff (List.cons_ne_nil text []) separator).mpr (by simpa using h)
  rwa [hjoin] at hsplit

namespace Capabilities

variable {ssl : OpenSsl} {known : OpenSslNames} {p : SecurityProfile}

/-- A group that was found when OpenSSL was probed is supported under its name. -/
theorem hasGroup_iff (hssl : ssl.AnswersBy known) (group : Bytes) :
    (probe ssl).hasGroup group = true ↔
      ssl.setGroupsList (cString group) = true ∧
        ∃ candidate ∈ kCandidateGroups, iequals candidate group = true := by
  have hclean : ∀ candidate ∈ kCandidateGroups, colon ∉ candidate ∧ 0 ∉ candidate := by decide
  -- A name that agrees with a candidate up to case is accepted exactly if the candidate is.
  have hsame : ∀ candidate ∈ kCandidateGroups, iequals candidate group = true →
      ssl.setGroupsList (cString group) = ssl.setGroupsList candidate := by
    intro candidate hcandidate hequals
    obtain ⟨hcolon, hzero⟩ := hclean candidate hcandidate
    have hcolon' : colon ∉ group := fun hmem =>
      hcolon (mem_of_iequals (forall_byte (by decide +kernel)) (by decide) hequals hmem)
    have hzero' : 0 ∉ group := fun hmem =>
      hzero (mem_of_iequals (forall_byte (by decide +kernel)) (by decide) hequals hmem)
    rw [cString_eq_self hzero', hssl.groups, hssl.groups, splitOn_of_not_mem hcolon,
      splitOn_of_not_mem hcolon', List.all_cons, List.all_cons,
      known.group_case candidate group hequals]
  simp only [hasGroup, probe, List.any_eq_true, List.mem_filter]
  constructor
  · rintro ⟨candidate, ⟨hcandidate, haccepted⟩, hequals⟩
    exact ⟨(hsame candidate hcandidate hequals).trans haccepted, candidate, hcandidate, hequals⟩
  · rintro ⟨haccepted, candidate, hcandidate, hequals⟩
    exact ⟨candidate, ⟨hcandidate, (hsame candidate hcandidate hequals).symm.trans haccepted⟩,
      hequals⟩

/-- A cipher suite that was found when OpenSSL was probed is one of the candidates. -/
theorem hasCipherSuite_iff (suite : Bytes) :
    (probe ssl).hasCipherSuite suite = true ↔
      ssl.setCiphersuites (cString suite) = true ∧ suite ∈ kCandidateCipherSuites := by
  have hclean : ∀ candidate ∈ kCandidateCipherSuites, 0 ∉ candidate := by decide
  simp only [hasCipherSuite, probe, List.any_eq_true, List.mem_filter, beq_iff_eq,
    exists_eq_right]
  constructor
  · rintro ⟨hcandidate, haccepted⟩
    rw [cString_eq_self (hclean suite hcandidate)]
    exact ⟨haccepted, hcandidate⟩
  · rintro ⟨haccepted, hcandidate⟩
    rw [cString_eq_self (hclean suite hcandidate)] at haccepted
    exact ⟨hcandidate, haccepted⟩

/-- Whether a group is supported, once OpenSSL is there. -/
theorem opensslSupportsGroup_eq (hssl : ssl.AnswersBy known) (group : Bytes) :
    opensslSupportsGroup ssl group = .ok (ssl.setGroupsList (cString group)) := by
  simp [opensslSupportsGroup, hssl.initialized, hssl.clientContext]

/-- The reported reason is empty exactly if the profile is reported as usable. -/
theorem blockingReason_eq_nil_iff (caps : Capabilities) (p : SecurityProfile) :
    (caps.availability p).blockingReason = [] ↔ (caps.availability p).usable = true :=
  List.isEmpty_iff.symm

/-- The missing groups are right exactly if the supported ones have been asked about. -/
theorem missingGroups_eq_iff (hssl : ssl.AnswersBy known) (p : SecurityProfile) :
    (((probe ssl).availability p).missingGroups = p.groups.filter fun group =>
        decide (opensslSupportsGroup ssl group ≠ .ok true)) ↔
      ∀ group ∈ p.groups, ssl.setGroupsList (cString group) = true →
        ∃ candidate ∈ kCandidateGroups, iequals candidate group = true := by
  have hsupports : ∀ group, decide (opensslSupportsGroup ssl group ≠ .ok true) =
      !ssl.setGroupsList (cString group) := by
    intro group
    rw [opensslSupportsGroup_eq hssl]
    cases ssl.setGroupsList (cString group) <;> rfl
  simp only [hsupports]
  exact filter_not_found_eq_iff (hasGroup_iff hssl)

/-- The missing cipher suites are right exactly if the accepted ones have been asked about. -/
theorem missingCipherSuites_eq_iff (ssl : OpenSsl) (p : SecurityProfile) :
    (((probe ssl).availability p).missingCipherSuites = p.cipherSuites.filter fun suite =>
        !ssl.setCiphersuites (cString suite)) ↔
      ∀ suite ∈ p.cipherSuites, ssl.setCiphersuites (cString suite) = true →
        suite ∈ kCandidateCipherSuites :=
  filter_not_found_eq_iff hasCipherSuite_iff

/-- If the accepted names of a profile have been asked about, then the profile is usable exactly if
everything it asks for is available. -/
theorem usable_iff_of_namesProbed (hssl : ssl.AnswersBy known) (hprobed : NamesProbed ssl p) :
    ((probe ssl).availability p).usable = true ↔
      (ssl.setMinProtoVersion && ssl.setMaxProtoVersion) = true ∧
        (∀ group ∈ p.groups, opensslSupportsGroup ssl group = .ok true) ∧
        (∀ suite ∈ p.cipherSuites, ssl.setCiphersuites (cString suite) = true) ∧
        (p.authentication = .mlDsa65 → ssl.supportsMlDsa65 = true) := by
  obtain ⟨hgroups, hsuites⟩ := hprobed
  rw [usable_availability_iff]
  refine and_congr Iff.rfl (and_congr (forall₂_congr ?_) (and_congr (forall₂_congr ?_) Iff.rfl))
  · intro group hgroup
    rw [hasGroup_iff hssl, opensslSupportsGroup_eq hssl, Except.ok.injEq]
    exact ⟨And.left, fun haccepted => ⟨haccepted, hgroups group hgroup haccepted⟩⟩
  · intro suite hsuite
    rw [hasCipherSuite_iff]
    exact ⟨And.left, fun haccepted => ⟨haccepted, hsuites suite hsuite haccepted⟩⟩

/-- The report on a profile is right exactly if the accepted names of the profile have been asked
about. -/
theorem truthful_iff_namesProbed (hssl : ssl.AnswersBy known) (p : SecurityProfile) :
    ((probe ssl).availability p).Truthful ssl p ↔ NamesProbed ssl p := by
  constructor
  · intro htruthful
    exact ⟨(missingGroups_eq_iff hssl p).mp htruthful.missingGroups,
      (missingCipherSuites_eq_iff ssl p).mp htruthful.missingCipherSuites⟩
  · intro hprobed
    exact
      { profile := rfl
        usable := usable_iff_of_namesProbed hssl hprobed
        missingGroups := (missingGroups_eq_iff hssl p).mpr hprobed.1
        missingCipherSuites := (missingCipherSuites_eq_iff ssl p).mpr hprobed.2
        blockingReason := blockingReason_eq_nil_iff _ _ }

/-- `detect` reports on every profile of the registry, in its order, and a report is right exactly
if every name of the profile that OpenSSL accepts is in the tables of names to ask about: a group up
to case, a cipher suite exactly. -/
theorem report_truthful_iff (ssl : OpenSsl) (known : OpenSslNames) (hssl : ssl.AnswersBy known)
    (registry : ProfileRegistry) :
    ∃ caps, detect ssl registry = .ok caps ∧
      List.Forall₂ (fun p a => ProfileAvailability.Truthful ssl p a ↔ NamesProbed ssl p)
        registry.profiles caps.profiles := by
  have hdetect : detect ssl registry =
      .ok { probe ssl with profiles := registry.profiles.map (probe ssl).availability } := by
    simp [detect, hssl.initialized, hssl.clientContext]
  refine ⟨_, hdetect, ?_⟩
  rw [List.forall₂_map_right_iff, List.forall₂_same]
  intro p _
  exact truthful_iff_namesProbed hssl p

/-- The names of an OpenSSL with one classical group beyond the tables. -/
def ffdheNames : OpenSslNames where
  group name := [ascii "x25519", ascii "x25519mlkem768", ascii "ffdhe4096"].any fun known =>
    iequals known name
  group_case a b h := any_iequals_congr _ ((iequals_iff a b).mp h)
  suite name := decide (name ∈ kCandidateCipherSuites)
  tls13 := true
  mldsa := true

/-- The report on the built-in hybrid profile. -/
theorem report_on_hybrid_truthful :
    ((probe ffdheNames.openSsl).availability SecurityProfile.hybrid).Truthful ffdheNames.openSsl
      SecurityProfile.hybrid := by
  obtain ⟨caps, hdetect, hreports⟩ := report_truthful_iff ffdheNames.openSsl ffdheNames
    ffdheNames.answersBy ⟨[SecurityProfile.hybrid]⟩
  cases hdetect
  obtain ⟨hreport, _⟩ := List.forall₂_cons.mp hreports
  refine hreport.mpr ⟨?_, ?_⟩
  · intro group hgroup _
    obtain rfl := List.mem_singleton.mp hgroup
    exact ⟨ascii "X25519MLKEM768", by decide, by decide⟩
  · intro suite hsuite _
    exact hsuite

/-- A definition with a group that OpenSSL knows and the tables do not. -/
def ffdhe4096 : ProfileDefinition :=
  builtinDefinition (ascii "classical-ffdhe4096") (ascii "Finite-field groups")
    [ascii "ffdhe4096"] defaultCipherSuites .ecdsaP256 true false

/-- The profile is accepted and OpenSSL supports its group, but the report calls the group missing.
-/
theorem ffdhe4096_reported_missing :
    ∃ p caps a, SecurityProfile.create ffdhe4096 = .ok p ∧
      detect ffdheNames.openSsl ⟨[p]⟩ = .ok caps ∧ caps.profiles = [a] ∧
      opensslSupportsGroup ffdheNames.openSsl (ascii "ffdhe4096") = .ok true ∧
      a.missingGroups = [ascii "ffdhe4096"] ∧ a.usable = false ∧
      ¬a.Truthful ffdheNames.openSsl p := by
  refine ⟨_, _, _, rfl, rfl, rfl, ?_, ?_, ?_, ?_⟩
  · rfl
  · rfl
  · rfl
  · intro htruthful
    have hmissing := htruthful.missingGroups
    exact absurd hmissing (by decide)

end Capabilities

end PqtlsLab
