import PqtlsLab.Policy.SecurityProfile

/-!
# The groups that are offered

A profile is checked name by name, but OpenSSL is given its groups and its cipher suites as
one text each, with a colon between the names, and reads the text of the groups up to the
first zero byte. Reading that text as a list gives the profile's own list exactly when no
name contains a colon; zero bytes and empty names can make a difference as well.
-/

namespace PqtlsLab

/-- The separator of names in the lists for OpenSSL. -/
def colon : UInt8 := 0x3A

/-- `c_str()` as its reader sees it: the text up to the first zero byte. -/
def cString (text : Bytes) : Bytes := text.takeWhile (· != 0)

namespace SecurityProfile

/-- `cipher_suites()`. -/
def cipherSuites (p : SecurityProfile) : List Bytes := p.definition.cipherSuites

/-- `openssl_groups_list`. -/
def opensslGroupsList (p : SecurityProfile) : Bytes := join p.groups colon

/-- `openssl_ciphersuites_list`. -/
def opensslCiphersuitesList (p : SecurityProfile) : Bytes := join p.cipherSuites colon

/-- The lists for OpenSSL name the groups and the cipher suites of the profile in order, and
what is handed to `SSL_CTX_set1_groups_list` is not empty and names only groups of the
profile. -/
def OffersExactly (p : SecurityProfile) : Prop :=
  p.opensslGroupsList.splitOn colon = p.groups ∧
    p.opensslCiphersuitesList.splitOn colon = p.cipherSuites ∧
    cString p.opensslGroupsList ≠ [] ∧
    ∀ name ∈ (cString p.opensslGroupsList).splitOn colon, name ∈ p.groups

end SecurityProfile

/-- No piece of a text that has been split contains the separator. -/
theorem not_mem_of_mem_splitOn {separator : UInt8} {text piece : Bytes}
    (h : piece ∈ text.splitOn separator) : separator ∉ piece := by
  induction text generalizing piece with
  | nil =>
    rw [List.splitOn_nil, List.mem_singleton] at h
    simp [h]
  | cons b text ih =>
    rw [List.splitOn_cons_eq_if_modifyHead] at h
    split at h
    · rcases List.mem_cons.mp h with rfl | h
      · simp
      · exact ih h
    · rename_i hne
      obtain ⟨first, rest, hsplit⟩ :=
        List.exists_cons_of_ne_nil (List.splitOn_ne_nil separator text)
      rw [hsplit, List.modifyHead_cons] at h
      rcases List.mem_cons.mp h with rfl | h
      · have hfirst := ih (hsplit ▸ List.mem_cons_self)
        simp only [List.mem_cons, not_or]
        exact ⟨fun heq => hne (by simp [heq]), hfirst⟩
      · exact ih (hsplit ▸ List.mem_cons_of_mem _ h)

/-- Joining some names and splitting the result gives the names back exactly when none of
them contains the separator. -/
theorem splitOn_join_iff {names : List Bytes} (h : names ≠ []) (separator : UInt8) :
    (join names separator).splitOn separator = names ↔ ∀ name ∈ names, separator ∉ name := by
  constructor
  · intro heq name hname
    rw [← heq] at hname
    exact not_mem_of_mem_splitOn hname
  · intro hall
    exact List.splitOn_intercalate separator hall h

/-- The names in a joined list up to the first zero byte: the names before one that contains
a zero byte, and the part of that one before it. -/
def beforeNul : List Bytes → List Bytes
  | [] => []
  | name :: names => if 0 ∈ name then [cString name] else name :: beforeNul names

/-- There is a name before the first zero byte, possibly an empty one. -/
theorem beforeNul_ne_nil {names : List Bytes} (h : names ≠ []) : beforeNul names ≠ [] := by
  cases names with
  | nil => exact absurd rfl h
  | cons name names =>
    rw [beforeNul]
    split <;> simp

/-- Text without a zero byte is read to its end. -/
theorem cString_of_not_mem {text : Bytes} (h : 0 ∉ text) (rest : Bytes) :
    cString (text ++ rest) = text ++ cString rest := by
  apply List.takeWhile_append_of_pos
  intro b hb
  simp only [bne_iff_ne, ne_eq]
  rintro rfl
  exact h hb

/-- What follows a zero byte is not read. -/
theorem cString_of_mem {text : Bytes} (h : 0 ∈ text) (rest : Bytes) :
    cString (text ++ rest) = cString text := by
  induction text with
  | nil => simp at h
  | cons b text ih =>
    unfold cString at ih ⊢
    by_cases hb : b = 0
    · simp [hb]
    · have hmem : (0 : UInt8) ∈ text := by simpa [Ne.symm hb] using h
      simp [hb, ih hmem]

/-- The joined list is read as the joined names before the first zero byte. -/
theorem cString_join {separator : UInt8} (hseparator : separator ≠ 0) (names : List Bytes) :
    cString (join names separator) = join (beforeNul names) separator := by
  induction names with
  | nil => rfl
  | cons name names ih =>
    unfold join at ih ⊢
    rw [beforeNul]
    by_cases hnul : 0 ∈ name
    · rw [if_pos hnul, List.intercalate_singleton]
      cases names with
      | nil => rw [List.intercalate_singleton]
      | cons second names =>
        rw [List.intercalate_cons_cons, List.append_assoc, cString_of_mem hnul]
    · rw [if_neg hnul]
      cases names with
      | nil =>
        have hread := cString_of_not_mem hnul []
        simpa [cString, beforeNul] using hread
      | cons second names =>
        have hsingle : (0 : UInt8) ∉ [separator] := by simpa using hseparator.symm
        have hrest := beforeNul_ne_nil (List.cons_ne_nil second names)
        rw [List.intercalate_cons_cons, List.intercalate_cons_of_ne_nil hrest, ← ih,
          List.append_assoc, List.append_assoc, cString_of_not_mem hnul, cString_of_not_mem hsingle]

/-- A joined list is empty only if it consists of one empty name. -/
theorem join_eq_nil_iff {names : List Bytes} (h : names ≠ []) (separator : UInt8) :
    join names separator = [] ↔ names = [[]] := by
  cases names with
  | nil => exact absurd rfl h
  | cons name names =>
    cases names with
    | nil => simp [join]
    | cons second names => simp [join, List.intercalate_cons_cons]

/-- The names before the first zero byte have no separator if none of the names has. -/
theorem not_mem_of_mem_beforeNul {separator : UInt8} {names : List Bytes}
    (h : ∀ name ∈ names, separator ∉ name) : ∀ name ∈ beforeNul names, separator ∉ name := by
  induction names with
  | nil => exact h
  | cons first names ih =>
    intro name hname
    rw [beforeNul] at hname
    split at hname
    · rw [List.mem_singleton.mp hname]
      exact fun hmem => h first List.mem_cons_self (List.takeWhile_subset _ hmem)
    · rcases List.mem_cons.mp hname with rfl | hname
      · exact h _ List.mem_cons_self
      · exact ih (fun name hmem => h name (List.mem_cons_of_mem _ hmem)) name hname

namespace SecurityProfile

/-- The cipher suites of a profile have no colon exactly when those of its definition have
none: the default ones do not. -/
theorem colon_not_mem_effectiveSuites (d : ProfileDefinition) :
    (∀ suite ∈ effectiveSuites d, colon ∉ suite) ↔ ∀ suite ∈ d.cipherSuites, colon ∉ suite := by
  unfold effectiveSuites
  split
  · rename_i hempty
    rw [List.isEmpty_iff.mp hempty]
    exact iff_of_true (by decide) (by simp)
  · exact Iff.rfl

/-- A definition that `create` accepts offers exactly its groups and cipher suites if and
only if none of their names contains a colon and the names of the groups before the first
zero byte are names of groups, and not just one empty name. -/
theorem offers_exactly_iff (d : ProfileDefinition) (p : SecurityProfile) (h : create d = .ok p) :
    OffersExactly p ↔
      (∀ group ∈ d.groups, colon ∉ group) ∧ (∀ suite ∈ d.cipherSuites, colon ∉ suite) ∧
        beforeNul d.groups ≠ [[]] ∧ ∀ name ∈ beforeNul d.groups, name ∈ d.groups := by
  have hdefinition := definition_of_create h
  have hgroups : p.groups = d.groups := by rw [groups, hdefinition]
  have hsuites : p.cipherSuites = effectiveSuites d := by rw [cipherSuites, hdefinition]
  have hgroups_ne : d.groups ≠ [] := hgroups ▸ p.groups_ne_nil
  have hsuites_ne := effectiveSuites_ne_nil d
  have hbefore := beforeNul_ne_nil hgroups_ne
  have hcolon : colon ≠ 0 := by decide
  unfold OffersExactly opensslGroupsList opensslCiphersuitesList
  rw [hgroups, hsuites, splitOn_join_iff hgroups_ne, splitOn_join_iff hsuites_ne,
    colon_not_mem_effectiveSuites, cString_join hcolon, ne_eq, join_eq_nil_iff hbefore]
  refine and_congr_right fun hall => and_congr_right fun _ => and_congr_right fun _ => ?_
  rw [(splitOn_join_iff hbefore colon).mpr (not_mem_of_mem_beforeNul hall)]

/-- A profile with two hybrid groups offers exactly these. -/
theorem offers_exactly_hybrid :
    ∃ p, create twoHybrids = .ok p ∧ p.groups.length = 2 ∧ OffersExactly p :=
  ⟨_, rfl, rfl, (offers_exactly_iff twoHybrids _ rfl).mpr (by decide)⟩

/-- A definition with one name that reads as two groups. -/
def twoInOne : ProfileDefinition :=
  { hybridX25519MlKem768 with groups := [ascii "X25519MLKEM768:x25519"] }

/-- A name with a colon is accepted and offers two groups that the profile does not list. -/
theorem offers_more_than_listed :
    ¬ ∀ (d : ProfileDefinition) (p : SecurityProfile), create d = .ok p → OffersExactly p := by
  intro h
  have hoffers := h twoInOne _ rfl
  exact absurd hoffers.1 (by decide)

end SecurityProfile

end PqtlsLab
