import PqtlsLab.Policy.SecurityProfile
import Mathlib.Data.List.Nodup
import Mathlib.Data.List.Perm.Subperm

/-!
# Which groups a profile permits

The lookup of a negotiated group compares names without regard to ASCII case, and
so does the classification of a name as hybrid or post-quantum. Both therefore
depend on the folded name alone. The checks of `create` leave one thing for the
fallback rule to do: nothing, because a profile that forbids a classical group
does not list one.
-/

namespace PqtlsLab

/-- Comparison without regard to case compares the folded names. -/
theorem iequals_iff (a b : Bytes) :
    iequals a b = true ↔ a.map asciiLower = b.map asciiLower := by
  induction a generalizing b with
  | nil => cases b <;> simp [iequals]
  | cons x a ih =>
    cases b with
    | nil => simp [iequals]
    | cons y b =>
      have htail := ih b
      simp only [iequals, Bool.and_eq_true, beq_iff_eq] at htail
      simp only [iequals, List.length_cons, List.zip_cons_cons, List.all_cons, Bool.and_eq_true,
        beq_iff_eq, List.map_cons, List.cons.injEq, ← htail, Nat.add_right_cancel_iff]
      tauto

/-- Names that agree up to case have the same bytes that are no letters. -/
theorem mem_of_iequals {a b : Bytes} {c : UInt8} (hc : ∀ x : UInt8, asciiLower x = c → x = c)
    (hself : asciiLower c = c) (h : iequals a b = true) (hmem : c ∈ b) : c ∈ a := by
  rw [iequals_iff] at h
  have hfold : c ∈ a.map asciiLower := by
    rw [h]
    exact List.mem_map.mpr ⟨c, hmem, hself⟩
  obtain ⟨x, hx, hlower⟩ := List.mem_map.mp hfold
  rwa [← hc x hlower]

/-- A table lookup without regard to case depends on the folded name alone. -/
theorem any_iequals_congr (table : List Bytes) {g g' : Bytes}
    (h : g.map asciiLower = g'.map asciiLower) :
    (table.any fun known => iequals known g) = table.any fun known => iequals known g' := by
  rw [Bool.eq_iff_iff]
  simp only [List.any_eq_true, iequals_iff, h]

/-- Whether a group is hybrid does not depend on the case of its name. -/
theorem isHybridGroup_congr {g g' : Bytes} (h : g.map asciiLower = g'.map asciiLower) :
    isHybridGroup g = isHybridGroup g' := any_iequals_congr kHybridGroups h

/-- Whether a group is post-quantum does not depend on the case of its name. -/
theorem isPostQuantumGroup_congr {g g' : Bytes} (h : g.map asciiLower = g'.map asciiLower) :
    isPostQuantumGroup g = isPostQuantumGroup g' := by
  unfold isPostQuantumGroup
  rw [isHybridGroup_congr h, any_iequals_congr kPureMlKemGroups h]

/-- Membership without regard to case. -/
theorem contains_iff (haystack : List Bytes) (needle : Bytes) :
    contains haystack needle = true ↔
      ∃ entry ∈ haystack, entry.map asciiLower = needle.map asciiLower := by
  simp [contains, iequals_iff]

namespace SecurityProfile

/-- A profile that rules out classical groups and lists a post-quantum one. -/
def DemandsPostQuantum (p : SecurityProfile) : Prop :=
  p.definition.allowClassicalFallback = false ∧ ∃ g ∈ p.groups, isPostQuantumGroup g = true

instance (p : SecurityProfile) : Decidable p.DemandsPostQuantum :=
  inferInstanceAs (Decidable (_ ∧ _))

/-- The name is that of a listed group, up to ASCII case. -/
def Lists (p : SecurityProfile) (g : Bytes) : Prop :=
  ∃ entry ∈ p.groups, entry.map asciiLower = g.map asciiLower

/-- The empty name is never permitted. -/
theorem not_permits_nil (p : SecurityProfile) : p.permitsNegotiatedGroup [] = false := rfl

/-- Every group that a demanding profile lists is post-quantum. -/
theorem isPostQuantumGroup_of_lists {p : SecurityProfile} (hp : p.DemandsPostQuantum) {g : Bytes}
    (hg : p.Lists g) : isPostQuantumGroup g = true := by
  obtain ⟨hfallback, known, hknown, hpq⟩ := hp
  obtain ⟨entry, hentry, hfold⟩ := hg
  have hany : p.definition.groups.any isPostQuantumGroup = true :=
    List.any_eq_true.mpr ⟨known, hknown, hpq⟩
  have hall := p.unmixed hany hfallback
  have hentrypq := List.all_eq_true.mp hall entry hentry
  rw [← isPostQuantumGroup_congr hfold]
  exact hentrypq

/-- A non-empty name is permitted exactly when the profile lists it. -/
theorem permits_iff_lists (p : SecurityProfile) {g : Bytes} (hg : g ≠ []) :
    p.permitsNegotiatedGroup g = true ↔ p.Lists g := by
  have hempty : g.isEmpty = false := by simpa using hg
  unfold permitsNegotiatedGroup
  rw [hempty]
  by_cases hlists : p.Lists g
  · have hcontains : contains p.groups g = true := (contains_iff _ _).mpr hlists
    simp only [Bool.false_eq_true, if_false, hcontains, Bool.not_true, hlists, iff_true]
    split
    · rename_i hfall
      simp only [Bool.and_eq_true, Bool.not_eq_true', offersPostQuantumKeyEstablishment,
        List.any_eq_true] at hfall
      obtain ⟨⟨hfallback, hclassical⟩, hoffers⟩ := hfall
      have hpq := isPostQuantumGroup_of_lists ⟨hfallback, hoffers⟩ hlists
      rw [hclassical] at hpq
      cases hpq
    · rfl
  · have hcontains : contains p.groups g = false := by
      rw [Bool.eq_false_iff]
      exact fun h => hlists ((contains_iff _ _).mp h)
    simp [hcontains, hlists]

/-- A permitted group of a demanding profile is post-quantum. -/
theorem isPostQuantumGroup_of_permits {p : SecurityProfile} (hp : p.DemandsPostQuantum) {g : Bytes}
    (hg : p.permitsNegotiatedGroup g = true) : isPostQuantumGroup g = true := by
  have hne : g ≠ [] := by
    rintro rfl
    rw [not_permits_nil] at hg
    cases hg
  exact isPostQuantumGroup_of_lists hp ((p.permits_iff_lists hne).mp hg)

/-- Two spellings of one group: the names differ in the case of ASCII letters only. -/
def SpellingVariants (a b : Bytes) : Prop := a ≠ b ∧ a.map asciiLower = b.map asciiLower

/-- The number of entries that a name matches is the number of entries with its folded name. -/
theorem countP_iequals (groups : List Bytes) (g : Bytes) :
    (groups.countP fun entry => iequals entry g) =
      (groups.map fun entry => entry.map asciiLower).count (g.map asciiLower) := by
  rw [List.count_eq_countP, List.countP_map]
  apply List.countP_congr
  intro entry _
  rw [iequals_iff, Function.comp_apply, beq_iff_eq]

/-- The groups of a profile differ up to case exactly if their folded names differ. -/
theorem pairwise_iequals_iff (groups : List Bytes) :
    (groups.Pairwise fun a b => iequals a b = false) ↔
      (groups.map fun entry => entry.map asciiLower).Nodup := by
  rw [List.Nodup, List.pairwise_map]
  have hpair : ∀ a b : Bytes, iequals a b = false ↔ a.map asciiLower ≠ b.map asciiLower := by
    intro a b
    rw [← Bool.not_eq_true, iequals_iff]
  simp only [hpair]

/-- The check of `create` makes the folded names different unless there are two spellings of one
group. -/
theorem folded_nodup_iff (p : SecurityProfile) :
    (p.groups.map fun entry => entry.map asciiLower).Nodup ↔
      ∀ a ∈ p.groups, ∀ b ∈ p.groups, ¬SpellingVariants a b := by
  have hnodup : p.groups.Nodup := p.groups_nodup
  rw [List.nodup_map_iff_inj_on hnodup]
  constructor
  · rintro hinj a ha b hb ⟨hne, hfold⟩
    exact hne (hinj a ha b hb hfold)
  · intro hno a ha b hb hfold
    by_contra hne
    exact hno a ha b hb ⟨hne, hfold⟩

/-- If no two listed names are spellings of one group, then a permitted group matches one entry. -/
theorem countP_eq_one_of_permits {p : SecurityProfile} {g : Bytes}
    (hfolded : (p.groups.map fun entry => entry.map asciiLower).Nodup)
    (hpermits : p.permitsNegotiatedGroup g = true) :
    (p.groups.countP fun entry => iequals entry g) = 1 := by
  have hne : g ≠ [] := by
    rintro rfl
    rw [not_permits_nil] at hpermits
    cases hpermits
  obtain ⟨entry, hentry, hfold⟩ := (p.permits_iff_lists hne).mp hpermits
  rw [countP_iequals]
  apply List.count_eq_one_of_mem hfolded
  rw [← hfold]
  exact List.mem_map_of_mem hentry

/-- Two spellings of one group are both permitted, and each of them matches more than one entry. -/
theorem two_le_countP_of_variants {p : SecurityProfile} {a b : Bytes} (ha : a ∈ p.groups)
    (hb : b ∈ p.groups) (hvariants : SpellingVariants a b) :
    p.permitsNegotiatedGroup a = true ∧ 2 ≤ p.groups.countP fun entry => iequals entry a := by
  obtain ⟨hne, hfold⟩ := hvariants
  have hempty : a ≠ [] := by
    rintro rfl
    rw [List.map_nil, eq_comm, List.map_eq_nil_iff] at hfold
    exact hne hfold.symm
  refine ⟨(p.permits_iff_lists hempty).mpr ⟨a, ha, rfl⟩, ?_⟩
  have hpair : [a, b].Subperm p.groups := by
    apply List.Nodup.subperm
    · simpa using hne
    · intro c hc
      rcases List.mem_pair.mp hc with rfl | rfl
      · exact ha
      · exact hb
  have hmatches : ([a, b].countP fun entry => iequals entry a) = 2 := by
    have haa : iequals a a = true := (iequals_iff a a).mpr rfl
    have hba : iequals b a = true := (iequals_iff b a).mpr hfold.symm
    simp [haa, hba]
  rw [← hmatches]
  exact hpair.countP_le _

/-- The groups of an accepted definition differ up to case exactly if the definition does not list
two spellings of one group, and under the same condition every permitted group matches exactly one
entry. -/
theorem groups_distinct_iff (d : ProfileDefinition) (p : SecurityProfile) (h : create d = .ok p) :
    ((p.groups.Pairwise fun a b => iequals a b = false) ↔
        ∀ a ∈ d.groups, ∀ b ∈ d.groups, ¬SpellingVariants a b) ∧
      ((∀ g, p.permitsNegotiatedGroup g = true →
          (p.groups.countP fun entry => iequals entry g) = 1) ↔
        ∀ a ∈ d.groups, ∀ b ∈ d.groups, ¬SpellingVariants a b) := by
  have hgroups : d.groups = p.groups := by
    have hspec := create_spec h
    rw [groups, hspec]
  rw [hgroups, pairwise_iequals_iff, folded_nodup_iff]
  refine ⟨Iff.rfl, ?_⟩
  constructor
  · intro hone a ha b hb hvariants
    obtain ⟨hpermits, htwo⟩ := two_le_countP_of_variants ha hb hvariants
    rw [hone a hpermits] at htwo
    exact absurd htwo (by decide)
  · intro hno g hpermits
    exact countP_eq_one_of_permits ((folded_nodup_iff p).mpr hno) hpermits

/-- Of two hybrid groups, a negotiated one matches the one that it spells in its own way. -/
theorem groups_of_hybrid_distinct :
    ∃ p, create twoHybrids = .ok p ∧ p.groups.length = 2 ∧
      (p.groups.Pairwise fun a b => iequals a b = false) ∧
      (p.groups.countP fun entry => iequals entry (ascii "x25519mlkem768")) = 1 := by
  obtain ⟨hpairwise, hmatch⟩ := groups_distinct_iff twoHybrids _ rfl
  have hno : ∀ a ∈ twoHybrids.groups, ∀ b ∈ twoHybrids.groups, ¬SpellingVariants a b := by
    unfold SpellingVariants
    decide
  exact ⟨_, rfl, rfl, hpairwise.mpr hno, hmatch.mpr hno _ (by decide)⟩

/-- A definition that lists one group in two spellings. -/
def twoSpellings : ProfileDefinition :=
  { hybridX25519MlKem768 with groups := [ascii "X25519MLKEM768", ascii "x25519mlkem768"] }

/-- Two spellings of one group are accepted, and the negotiated group matches both. -/
theorem two_spellings_accepted :
    ∃ p, create twoSpellings = .ok p ∧
      ¬(p.groups.Pairwise fun a b => iequals a b = false) ∧
      p.permitsNegotiatedGroup (ascii "X25519MLKEM768") = true ∧
      (p.groups.countP fun entry => iequals entry (ascii "X25519MLKEM768")) = 2 := by
  refine ⟨_, rfl, ?_, ?_, ?_⟩
  · decide
  · decide
  · decide

end SecurityProfile

end PqtlsLab
