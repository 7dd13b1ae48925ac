import PqtlsLab.Experiment.RunBenchmarks

/-!
# The capability gate

The gate sets those cells aside whose profile is not usable according to the report, each with a
reason, and keeps all others. It never asks whether a profile is experimental.
-/

namespace PqtlsLab

/-- What the report says about a profile: the last entry counts. -/
def Capabilities.reported (caps : Capabilities) (profile : Bytes) : Option ProfileAvailability :=
  caps.profiles.reverse.find? fun a => a.profileId = profile

namespace Experiment

section Gate

variable (availability : Dictionary Bytes (Bool × Json))

/-- The gate drops nothing: each cell is runnable or has an outcome. -/
theorem capabilityGate_perm (specs : List RunSpec) :
    ((capabilityGate availability specs).2.map RunOutcome.spec ++
      (capabilityGate availability specs).1).Perm specs := by
  induction specs with
  | nil => exact List.Perm.refl _
  | cons spec specs ih =>
    rw [capabilityGate]
    split
    · exact List.perm_middle.trans (ih.cons spec)
    · exact ih.cons spec

/-- What is runnable is usable. -/
theorem usable_of_mem_gate {specs : List RunSpec} {spec : RunSpec}
    (h : spec ∈ (capabilityGate availability specs).1) :
    (availabilityOf availability spec.profile).1 = true := by
  induction specs with
  | nil => cases h
  | cons first specs ih =>
    rw [capabilityGate] at h
    split at h
    · rename_i husable
      rcases List.mem_cons.mp h with rfl | h
      · exact husable
      · exact ih h
    · exact ih h

/-- The value of an `or` whose right-hand side is true is true. -/
theorem truthy_orElse {value default : Json} (h : default.truthy = true) :
    (value.orElse default).truthy = true := by
  unfold Json.orElse
  split
  · assumption
  · exact h

/-- What has an outcome already was skipped for a reason, because it is not usable. -/
theorem skipped_of_mem_gate {specs : List RunSpec} {o : RunOutcome}
    (h : o ∈ (capabilityGate availability specs).2) :
    o.status = .skipped ∧ o.reason.truthy = true ∧
      (availabilityOf availability o.spec.profile).1 = false := by
  induction specs with
  | nil => cases h
  | cons first specs ih =>
    rw [capabilityGate] at h
    split at h
    · exact ih h
    · rename_i husable
      rcases List.mem_cons.mp h with rfl | h
      · exact ⟨rfl, truthy_orElse (by decide), by simpa using husable⟩
      · exact ih h

/-- What is runnable is what is usable. -/
theorem runnable_eq_filter (specs : List RunSpec) :
    (capabilityGate availability specs).1 =
      specs.filter fun spec => (availabilityOf availability spec.profile).1 := by
  induction specs with
  | nil => rfl
  | cons spec specs ih =>
    rw [capabilityGate, List.filter_cons, ← ih]
    split
    · rfl
    · rfl

end Gate

section Report

variable (caps : Capabilities)

/-- `usable_profiles` reads an entry of the report. -/
theorem entryAvailability_toJson (a : ProfileAvailability) :
    entryAvailability a.toJson = .ok (some (a.profileId, a.usable, .string a.blockingReason)) := by
  have hreason : Json.orElse (if a.blockingReason.isEmpty then .null else .string a.blockingReason)
      (.string []) = .string a.blockingReason := by
    cases hblocking : a.blockingReason with
    | nil => rfl
    | cons b rest => rfl
  have hentry : entryAvailability a.toJson = .ok (some (a.profileId, a.usable,
      Json.orElse (if a.blockingReason.isEmpty then .null else .string a.blockingReason)
        (.string []))) := rfl
  rw [hentry, hreason]

/-- `usable_profiles` reads the entries of the report. -/
theorem entryAvailabilities_toJson (profiles : List ProfileAvailability) :
    entryAvailabilities (profiles.map ProfileAvailability.toJson) =
      .ok (profiles.map fun a => (a.profileId, a.usable, .string a.blockingReason)) := by
  induction profiles with
  | nil => rfl
  | cons a profiles ih =>
    rw [List.map_cons, entryAvailabilities, entryAvailability_toJson, ih]
    rfl

/-- The table that `usable_profiles` makes of the report. -/
def availabilityTable : Dictionary Bytes (Bool × Json) :=
  .ofList (caps.profiles.map fun a => (a.profileId, a.usable, .string a.blockingReason))

/-- `usable_profiles` reads the report. -/
theorem usableProfiles_toJson {host : Host} {err : Bytes}
    (hreport : host.capabilities = .ok ⟨0, .ok caps.toJson, err⟩) :
    usableProfiles host = .ok (availabilityTable caps) := by
  have hentries : profileEntries caps.toJson =
      .ok (caps.profiles.map ProfileAvailability.toJson) := rfl
  rw [usableProfiles, hreport]
  dsimp only
  rw [if_neg (fun h => h rfl), hentries, show (Except.ok (caps.profiles.map
    ProfileAvailability.toJson) >>= entryAvailabilities) =
      entryAvailabilities (caps.profiles.map ProfileAvailability.toJson) from rfl,
    entryAvailabilities_toJson]
  rfl

/-- A profile is taken for usable if the report says so. -/
theorem availabilityOf_table_iff (profile : Bytes) :
    (availabilityOf (availabilityTable caps) profile).1 = true ↔
      ∃ a, caps.reported profile = some a ∧ a.usable = true := by
  have hget : (availabilityTable caps).get? profile =
      (caps.reported profile).map fun a => (a.usable, .string a.blockingReason) := by
    rw [availabilityTable, Dictionary.get?_ofList, ← List.map_reverse, List.find?_map,
      Option.map_map]
    rfl
  rw [availabilityOf, hget]
  cases caps.reported profile with
  | none => simp
  | some a => simp

end Report

/-- The cells that are not set aside. -/
def usableCells (args : Arguments) (caps : Capabilities) : List RunSpec :=
  (buildMatrix args).filter fun spec => (caps.reported spec.profile).any ProfileAvailability.usable

/-- The cells that are not set aside are those that are run. -/
theorem runnable_eq_usableCells (args : Arguments) (caps : Capabilities) :
    (capabilityGate (availabilityTable caps) (buildMatrix args)).1 = usableCells args caps := by
  rw [runnable_eq_filter, usableCells]
  congr 1
  funext spec
  rw [Bool.eq_iff_iff, availabilityOf_table_iff, Option.any_eq_true]

end Experiment

end PqtlsLab
