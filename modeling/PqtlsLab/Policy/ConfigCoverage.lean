import PqtlsLab.Policy.ConfigFile

/-!
# Keys that a configuration file loses

A file that loads without a warning is supposed to have been read as a whole. The loader does not
look at every map of the file, though: beside a common section the top level is neither checked for
unknown keys nor searched for common options, and likewise for the section of the binary. Here are
all maps that may hold options, wherever they stand, and the conditions on the document under which
every key in them is known and every option in them has been assigned and is in force afterwards.
-/

namespace PqtlsLab

/-- A map of a document that may hold options: its place, its content and the keys that are known
there. -/
structure DocumentPart where
  place : List ℕ
  node : Yaml
  known : List Bytes

section Coverage

variable {σ : Type}

/-- The top level and every section with the name of the common part or of the binary's own. -/
inductive IsPart (role : ConfigRole σ) (root : Yaml) : DocumentPart → Prop
  | top : IsPart role root ⟨[], root, commonKnown⟩
  | common {j : ℕ} {node : Yaml} (h : root.entries[j]? = some (.scalar commonName, node)) :
      IsPart role root ⟨[j], node, commonKnown⟩
  | own {j : ℕ} {node : Yaml} (h : root.entries[j]? = some (.scalar role.name, node)) :
      IsPart role root ⟨[j], node, role.known⟩

/-- The keys of some options. -/
def optionKeys {τ : Type} (settings : List (Setting τ)) : List Bytes := settings.map Setting.key

/-- Every entry of the document with the key of one of the options has been assigned, and its value
is in force in the configuration. -/
def EveryEntryAssigned {τ : Type} (lib : YamlLibrary) (role : ConfigRole σ) (root : Yaml)
    (settings : List (Setting τ)) (assigned : List (List ℕ)) (c : τ) : Prop :=
  ∀ part, IsPart role root part → ∀ setting ∈ settings, ∀ i entry,
    part.node.entries[i]? = some (.scalar setting.key, entry) →
      part.place ++ [i] ∈ assigned ∧ setting.InForce lib entry c

/-- Every key is known, and every entry with the key of an option has been assigned. -/
structure EveryKeyUsed (lib : YamlLibrary) (role : ConfigRole σ) (root : Yaml) (s : Loading σ) :
    Prop where
  known : ∀ part, IsPart role root part → ∀ key ∈ part.node.keys, key.KnownAs part.known
  common : EveryEntryAssigned lib role root commonSettings s.assigned (role.common s.config)
  own : EveryEntryAssigned lib role root role.settings s.assigned s.config

/-- The options of a part stand in the first section of its name, or at the top level if there is
no such section, and none of them is given twice. -/
def OnlyIn (role : ConfigRole σ) (root : Yaml) (name : Bytes) (options : List Bytes) : Prop :=
  ∀ part, IsPart role root part → ∀ i text, part.node.keys[i]? = some (.scalar text) →
    text ∈ options → part.place = root.partPlace name ∧ part.node.position? text = some i

/-- The document has every key where the loader looks for it. -/
structure WellPlaced (role : ConfigRole σ) (root : Yaml) : Prop where
  /-- Beside a common section, the top level has known keys only. -/
  top : root.get? commonName ≠ none → ∀ key ∈ root.keys, key.KnownAs commonKnown
  /-- A section that is not the first of its name has known keys only. -/
  repeated : ∀ part, IsPart role root part → part.place ≠ [] →
    part.place ≠ root.partPlace commonName → part.place ≠ root.partPlace role.name →
      ∀ key ∈ part.node.keys, key.KnownAs part.known
  common : OnlyIn role root commonName (optionKeys commonSettings)
  own : OnlyIn role root role.name (optionKeys role.settings)
  /-- Two options for the same field have the same text. -/
  synonyms : ∀ pair ∈ role.synonyms, ∀ x y, (root.part role.name).get? pair.1 = some x →
    (root.part role.name).get? pair.2 = some y → x.text? = y.text?

/-- The names of the sections differ, and no option belongs to both parts. -/
structure ConfigRole.Regular (role : ConfigRole σ) : Prop extends role.Lawful where
  name_ne : role.name ≠ commonName
  disjoint : ∀ key ∈ optionKeys commonSettings, key ∉ optionKeys role.settings

variable {role : ConfigRole σ} {root : Yaml} {name : Bytes} {part : DocumentPart}

/-- Without a section the loader reads the whole document. -/
theorem part_of_partPlace_nil (h : [] = root.partPlace name) :
    root.part name = root ∧ root.get? name = none := by
  have hposition : root.position? name = none := by simpa [Yaml.partPlace] using h.symm
  have hget := Yaml.position?_eq_none_iff.mp hposition
  exact ⟨by rw [Yaml.part, hget, Option.getD_none], hget⟩

/-- With a section the loader reads the first one of its name. -/
theorem part_of_partPlace_singleton {j : ℕ} {key node : Yaml}
    (hentry : root.entries[j]? = some (key, node)) (h : [j] = root.partPlace name) :
    key = .scalar name ∧ root.part name = node ∧ root.get? name = some node := by
  have hposition : root.position? name = some j := by
    simpa [Yaml.partPlace, Option.toList_eq_singleton_iff] using h.symm
  have hget : root.get? name = some node := by
    rw [Yaml.get?_eq_bind_position?, hposition, Option.bind_some, hentry, Option.map_some]
  have hkey := Yaml.key_of_position? hposition
  rw [Yaml.keys, List.getElem?_map, hentry, Option.map_some, Option.some.injEq] at hkey
  exact ⟨hkey, by rw [Yaml.part, hget, Option.getD_some], hget⟩

/-- The part at the place that the loader reads is the part that it reads. -/
theorem IsPart.node_eq (h : IsPart role root part) (hplace : part.place = root.partPlace name) :
    part.node = root.part name := by
  cases h with
  | top => exact (part_of_partPlace_nil hplace).1.symm
  | common hentry => exact (part_of_partPlace_singleton hentry hplace).2.1.symm
  | own hentry => exact (part_of_partPlace_singleton hentry hplace).2.1.symm

/-- The places that are noted are those of the first entries in the part that is read. -/
theorem mem_placesOf_iff {settings : List (Setting τ)} {place : List ℕ} :
    place ∈ root.placesOf name settings ↔ ∃ key ∈ optionKeys settings, ∃ i,
      (root.part name).position? key = some i ∧ place = root.partPlace name ++ [i] := by
  simp only [Yaml.placesOf, Yaml.placeOf, optionKeys, List.mem_flatMap, List.mem_map,
    Option.mem_toList, exists_exists_and_eq_and]
  simp only [eq_comm (b := place)]

/-- An entry of a part has been assigned exactly when it is the first with the key of one of the
options in the part that is read for them. -/
theorem IsPart.mem_placesOf_iff {settings : List (Setting τ)} (h : IsPart role root part) {i : ℕ}
    {text : Bytes} (hkey : part.node.keys[i]? = some (.scalar text)) :
    part.place ++ [i] ∈ root.placesOf name settings ↔
      text ∈ optionKeys settings ∧ part.place = root.partPlace name ∧
        part.node.position? text = some i := by
  rw [PqtlsLab.mem_placesOf_iff]
  constructor
  · rintro ⟨key, hmem, i', hposition, heq⟩
    obtain ⟨hplace, hi⟩ := List.append_inj' heq rfl
    cases hi
    have hnode := h.node_eq hplace
    rw [← hnode] at hposition
    have hkey' := Yaml.key_of_position? hposition
    rw [hkey] at hkey'
    cases hkey'
    exact ⟨hmem, hplace, hposition⟩
  · rintro ⟨hmem, hplace, hposition⟩
    rw [h.node_eq hplace] at hposition
    exact ⟨text, hmem, i, hposition, by rw [hplace]⟩

/-- What is known in a part that the loader checks. -/
theorem IsPart.knownAs (h : IsPart role root part) (hrole : role.Regular)
    (hcommon : ∀ key ∈ (root.part commonName).keys, key.KnownAs commonKnown)
    (hown : ∀ node, root.get? role.name = some node → ∀ key ∈ node.keys, key.KnownAs role.known)
    (hplaced : WellPlaced role root) :
    ∀ key ∈ part.node.keys, key.KnownAs part.known := by
  have hname := hrole.name_ne
  cases h with
  | top =>
    by_cases hnone : root.get? commonName = none
    · rwa [Yaml.part, hnone, Option.getD_none] at hcommon
    · exact hplaced.top hnone
  | @common j node hentry =>
    by_cases hplace : [j] = root.partPlace commonName
    · rwa [(part_of_partPlace_singleton hentry hplace).2.1] at hcommon
    · refine hplaced.repeated _ (.common hentry) (by simp) hplace fun hplace' => hname ?_
      exact (Yaml.scalar.inj (part_of_partPlace_singleton hentry hplace').1).symm
  | @own j node hentry =>
    by_cases hplace : [j] = root.partPlace role.name
    · exact hown node (part_of_partPlace_singleton hentry hplace).2.2
    · refine hplaced.repeated _ (.own hentry) (by simp) (fun hplace' => hname ?_) hplace
      exact Yaml.scalar.inj (part_of_partPlace_singleton hentry hplace').1

/-- The entry at the first position of a key is the value of the key. -/
theorem get?_of_position? {node : Yaml} {text : Bytes} {i : ℕ} {entry : Yaml}
    (hposition : node.position? text = some i)
    (hentry : node.entries[i]? = some (.scalar text, entry)) : node.get? text = some entry := by
  rw [Yaml.get?_eq_bind_position?, hposition, Option.bind_some, hentry, Option.map_some]

/-- A key has an entry. -/
theorem exists_entry_of_keys {node : Yaml} {text : Bytes} {i : ℕ}
    (h : node.keys[i]? = some (.scalar text)) :
    ∃ entry, node.entries[i]? = some (.scalar text, entry) := by
  rw [Yaml.keys, List.getElem?_map] at h
  obtain ⟨⟨key, entry⟩, hentry, rfl⟩ := Option.map_eq_some_iff.mp h
  exact ⟨entry, hentry⟩

/-- The value of a key is an entry with the key. -/
theorem exists_entry_of_get? {node entry : Yaml} {text : Bytes} (h : node.get? text = some entry) :
    ∃ i : ℕ, node.entries[i]? = some (.scalar text, entry) := by
  rw [Yaml.get?, Option.map_eq_some_iff] at h
  obtain ⟨⟨key, value⟩, hfind, rfl⟩ := h
  have hkey : key.isText text = true := by simpa using List.find?_some hfind
  obtain ⟨i, hi⟩ := List.getElem?_of_mem (List.mem_of_find?_eq_some hfind)
  exact ⟨i, by rw [hi, Yaml.isText_iff.mp hkey]⟩

/-- The part that is read for the binary is a part. -/
theorem isPart_own (role : ConfigRole σ) (root : Yaml) :
    ∃ part, IsPart role root part ∧ part.node = root.part role.name := by
  cases hget : root.get? role.name with
  | none => exact ⟨_, .top, by rw [Yaml.part, hget, Option.getD_none]⟩
  | some node =>
    obtain ⟨j, hentry⟩ := exists_entry_of_get? hget
    exact ⟨_, .own hentry, by rw [Yaml.part, hget, Option.getD_some]⟩

/-- Where the entries of some options have been noted. -/
def NotedIn {τ : Type} (role : ConfigRole σ) (root : Yaml) (name : Bytes)
    (settings : List (Setting τ)) (assigned : List (List ℕ)) : Prop :=
  ∀ part, IsPart role root part → ∀ setting ∈ settings, ∀ i,
    part.node.keys[i]? = some (.scalar setting.key) → (part.place ++ [i] ∈ assigned ↔
      part.place = root.partPlace name ∧ part.node.position? setting.key = some i)

/-- If every entry has been assigned, they all stand where the noted ones do. -/
theorem EveryEntryAssigned.onlyIn {lib : YamlLibrary} {τ : Type} {settings : List (Setting τ)}
    {assigned : List (List ℕ)} {c : τ}
    (h : EveryEntryAssigned lib role root settings assigned c)
    (hnoted : NotedIn role root name settings assigned) :
    OnlyIn role root name (optionKeys settings) := by
  intro part hpart i text hkey hmem
  obtain ⟨setting, hsetting, rfl⟩ := List.mem_map.mp hmem
  obtain ⟨entry, hentry⟩ := exists_entry_of_keys hkey
  exact (hnoted part hpart setting hsetting i hkey).mp
    (h part hpart setting hsetting i entry hentry).1

/-- If all entries stand where the noted ones do, and those are in force, every entry has been
assigned. -/
theorem OnlyIn.everyEntryAssigned {lib : YamlLibrary} {τ : Type} {settings : List (Setting τ)}
    {assigned : List (List ℕ)} {c : τ} (h : OnlyIn role root name (optionKeys settings))
    (hnoted : NotedIn role root name settings assigned)
    (hforce : ∀ setting ∈ settings, ∀ x, (root.part name).get? setting.key = some x →
      setting.InForce lib x c) :
    EveryEntryAssigned lib role root settings assigned c := by
  intro part hpart setting hsetting i entry hentry
  have hkey : part.node.keys[i]? = some (.scalar setting.key) := by
    rw [Yaml.keys, List.getElem?_map, hentry, Option.map_some]
  have hplaced := h part hpart i setting.key hkey (List.mem_map_of_mem hsetting)
  refine ⟨(hnoted part hpart setting hsetting i hkey).mpr hplaced, hforce setting hsetting entry ?_⟩
  rw [← hpart.node_eq hplaced.1]
  exact get?_of_position? hplaced.2 hentry

/-- A document that loads without a warning has had every key used exactly when it has every key
where the loader looks for it. -/
theorem ConfigRole.everyKeyUsed_iff (hrole : role.Regular) {lib : YamlLibrary} {path : Bytes}
    {config : σ} {warnings : List Bytes} {s : Loading σ}
    (h : role.loadYaml lib path (.ok root) ⟨config, warnings, []⟩ = .ok s)
    (hnone : s.warnings = []) : EveryKeyUsed lib role root s ↔ WellPlaced role root := by
  obtain ⟨hassigned, hwarnings⟩ := ConfigRole.loadYaml_spec h
  obtain ⟨-, hcommon, hown⟩ := hwarnings hnone
  obtain ⟨hforceCommon, hforceOwn⟩ := hrole.toLawful.inForce h
  have hmem : ∀ part, IsPart role root part → ∀ i text,
      part.node.keys[i]? = some (.scalar text) → (part.place ++ [i] ∈ s.assigned ↔
        (text ∈ optionKeys commonSettings ∧ part.place = root.partPlace commonName ∧
          part.node.position? text = some i) ∨
        text ∈ optionKeys role.settings ∧ part.place = root.partPlace role.name ∧
          part.node.position? text = some i) := by
    intro part hpart i text hkey
    rw [hassigned, List.nil_append, List.mem_append, hpart.mem_placesOf_iff hkey,
      hpart.mem_placesOf_iff hkey]
  have hnotedCommon : NotedIn role root commonName commonSettings s.assigned := by
    intro part hpart setting hsetting i hkey
    have hoption : setting.key ∈ optionKeys commonSettings := List.mem_map_of_mem hsetting
    rw [hmem part hpart i _ hkey]
    simp only [hoption, hrole.disjoint _ hoption, true_and, false_and, or_false]
  have hnotedOwn : NotedIn role root role.name role.settings s.assigned := by
    intro part hpart setting hsetting i hkey
    have hoption : setting.key ∈ optionKeys role.settings := List.mem_map_of_mem hsetting
    have hother : setting.key ∉ optionKeys commonSettings := fun hmem =>
      hrole.disjoint _ hmem hoption
    rw [hmem part hpart i _ hkey]
    simp only [hoption, hother, true_and, false_and, false_or]
  constructor
  · rintro ⟨hknown, hcommonUsed, hownUsed⟩
    refine ⟨fun _ => hknown _ .top, fun part hpart _ _ _ => hknown part hpart,
      hcommonUsed.onlyIn hnotedCommon, hownUsed.onlyIn hnotedOwn, ?_⟩
    intro pair hpair x y hx hy
    obtain ⟨left, hleft, right, hright, rfl, hfield⟩ := hrole.synonyms pair hpair
    obtain ⟨part, hpart, hnode⟩ := isPart_own role root
    rw [← hnode] at hx hy
    obtain ⟨i, hi⟩ := exists_entry_of_get? hx
    obtain ⟨j, hj⟩ := exists_entry_of_get? hy
    exact hfield.text?_eq (hownUsed part hpart left hleft i x hi).2
      (hownUsed part hpart right hright j y hj).2
  · intro hplaced
    refine ⟨fun part hpart => hpart.knownAs hrole hcommon hown hplaced, ?_, ?_⟩
    · exact hplaced.common.everyEntryAssigned hnotedCommon hforceCommon
    · exact hplaced.own.everyEntryAssigned hnotedOwn (hforceOwn hplaced.synonyms)

end Coverage

/-- The client's part. -/
theorem clientRole_regular : clientRole.Regular where
  name_ne := by decide
  disjoint := by decide
  lawful := by
    simp only [clientRole, List.forall_mem_cons, List.not_mem_nil, false_imp_iff, implies_true,
      and_true]
    repeat' apply And.intro
    all_goals exact fun _ _ => rfl
  independent := by
    refine List.Pairwise.imp (R := Setting.Independent) .inl ?_
    simp only [clientRole, List.pairwise_cons, List.forall_mem_cons, List.not_mem_nil,
      false_imp_iff, implies_true, and_true, List.Pairwise.nil]
    repeat' apply And.intro
    all_goals exact fun _ _ => rfl
  synonyms := by simp [clientRole]
  common_setCommon _ _ := rfl
  common_assign := by
    simp only [clientRole, List.forall_mem_cons, List.not_mem_nil, false_imp_iff, implies_true,
      and_true]

/-- The server's part. -/
theorem serverRole_regular : serverRole.Regular where
  name_ne := by decide
  disjoint := by decide
  lawful := by
    simp only [serverRole, List.forall_mem_cons, List.not_mem_nil, false_imp_iff, implies_true,
      and_true]
    repeat' apply And.intro
    all_goals exact fun _ _ => rfl
  independent := by
    simp only [serverRole, List.pairwise_cons, List.forall_mem_cons, List.not_mem_nil,
      false_imp_iff, implies_true, and_true, List.Pairwise.nil]
    refine ⟨⟨.inr ⟨⟨_, _, _, _, rfl, rfl⟩, by decide⟩, ?_⟩, ?_⟩
    all_goals repeat' apply And.intro
    all_goals exact .inl fun _ _ => rfl
  synonyms := by
    simp only [serverRole, List.forall_mem_singleton]
    exact ⟨_, .head _, _, .tail _ (.head _), rfl, _, _, _, _, rfl, rfl⟩
  common_setCommon _ _ := rfl
  common_assign := by
    simp only [serverRole, List.forall_mem_cons, List.not_mem_nil, false_imp_iff, implies_true,
      and_true]

/-- For both binaries, a file that loads without a warning has had every key used exactly when it
has every key where the loader looks for it. -/
theorem every_key_used_iff (lib : YamlLibrary) (path : Bytes) (root : Yaml)
    (warnings : List Bytes) :
    (∀ config s, loadServerYaml lib path (.ok root) ⟨config, warnings, []⟩ = .ok s →
      s.warnings = [] → (EveryKeyUsed lib serverRole root s ↔ WellPlaced serverRole root)) ∧
    ∀ config s, loadClientYaml lib path (.ok root) ⟨config, warnings, []⟩ = .ok s →
      s.warnings = [] → (EveryKeyUsed lib clientRole root s ↔ WellPlaced clientRole root) :=
  ⟨fun _ _ h hnone => serverRole.everyKeyUsed_iff serverRole_regular h hnone,
    fun _ _ h hnone => clientRole.everyKeyUsed_iff clientRole_regular h hnone⟩

/-- A file in the flat form, which demands client certificates. -/
def flatDemand : Yaml :=
  .map [(.scalar (ascii "require_client_certificate"), .scalar (ascii "true"))]

/-- The demand is where the loader looks for it. -/
theorem flatDemand_wellPlaced : WellPlaced serverRole flatDemand := by
  have hentries : ∀ {j : ℕ} {entry : Yaml × Yaml}, flatDemand.entries[j]? = some entry →
      j = 0 ∧ entry.1 = .scalar (ascii "require_client_certificate") := by
    intro j entry hentry
    cases j with
    | zero =>
      cases hentry
      exact ⟨rfl, rfl⟩
    | succ j => cases hentry
  have htop : ∀ part, IsPart serverRole flatDemand part → part = ⟨[], flatDemand, commonKnown⟩ := by
    intro part hpart
    cases hpart with
    | top => rfl
    | common hentry =>
      exact absurd (Yaml.scalar.inj (hentries hentry).2) (by decide)
    | own hentry =>
      exact absurd (Yaml.scalar.inj (hentries hentry).2) (by decide)
  have hkey : ∀ {i : ℕ} {text : Bytes}, flatDemand.keys[i]? = some (.scalar text) →
      i = 0 ∧ text = ascii "require_client_certificate" := by
    intro i text hkey
    rw [Yaml.keys, List.getElem?_map, Option.map_eq_some_iff] at hkey
    obtain ⟨entry, hentry, htext⟩ := hkey
    obtain ⟨hi, hfirst⟩ := hentries hentry
    rw [hfirst] at htext
    exact ⟨hi, (Yaml.scalar.inj htext).symm⟩
  refine ⟨fun hsection => absurd rfl hsection, ?_, ?_, ?_, ?_⟩
  · intro part hpart hplace
    rw [htop part hpart] at hplace
    exact absurd rfl hplace
  · intro part hpart i text htext hmem
    rw [htop part hpart] at htext
    rw [(hkey htext).2] at hmem
    exact absurd hmem (by decide)
  · intro part hpart i text htext hmem
    rw [htop part hpart] at htext ⊢
    obtain ⟨rfl, rfl⟩ := hkey htext
    exact ⟨rfl, rfl⟩
  · simp only [serverRole, List.forall_mem_singleton]
    intro x y hx
    cases hx

/-- A server with this file demands client certificates, and nothing of the file is lost. -/
theorem every_key_used_flat :
    ∃ s, loadServerYaml .plain (ascii "server.yaml") (.ok flatDemand) ⟨{}, [], []⟩ = .ok s ∧
      s.config.requireClientCertificate = true ∧ EveryKeyUsed .plain serverRole flatDemand s :=
  ⟨_, rfl, rfl, ((every_key_used_iff .plain (ascii "server.yaml") flatDemand []).1 {} _ rfl rfl).mpr
    flatDemand_wellPlaced⟩

/-- A file with a section for the server, which demands client certificates elsewhere. -/
def misplacedDemand : Yaml :=
  .map [(.scalar (ascii "server"), .map [(.scalar (ascii "port"), .scalar (ascii "8443"))]),
    (.scalar (ascii "require_client_certificate"), .scalar (ascii "true"))]

/-- The demand is lost: the file loads without a warning and client certificates are not
required. -/
theorem misplaced_demand_lost :
    ∃ s, loadServerYaml .plain (ascii "server.yaml") (.ok misplacedDemand) ⟨{}, [], []⟩ = .ok s ∧
      s.warnings = [] ∧ s.config.requireClientCertificate = false ∧
      ¬EveryKeyUsed .plain serverRole misplacedDemand s := by
  refine ⟨_, rfl, rfl, rfl, fun hused => ?_⟩
  have hassigned := (hused.own _ .top ⟨ascii "require_client_certificate", .bool,
    ServerConfig.requireClientCertificate, fun v c => { c with requireClientCertificate := v }⟩
    (by simp [serverRole]) 1 _ rfl).1
  exact absurd hassigned (by decide)

end PqtlsLab
