import Mathlib.Algebra.GroupWithZero.Nat
import Mathlib.Data.List.Induction
import Mathlib.Data.List.Perm.Basic
import Mathlib.Data.List.Sort

/-!
# Dictionaries that remember the order of insertion

A dictionary keeps its keys in the order in which they first came. Going through a list and changing
the entry of each element's key groups the list or counts it: the entry of a key then depends on the
elements with that key only, and the order of the list shows in the order of the keys only.
-/

namespace PqtlsLab

/-- A dictionary: a list of entries with different keys. -/
structure Dictionary (κ ν : Type*) where
  entries : List (κ × ν)
  nodup : (entries.map Prod.fst).Nodup

namespace Dictionary

variable {κ ν α : Type*}

/-- The dictionary without entries. -/
def empty : Dictionary κ ν := ⟨[], List.nodup_nil⟩

/-- The keys in the order of insertion. -/
def keys (d : Dictionary κ ν) : List κ := d.entries.map Prod.fst

/-- The keys are different. -/
theorem nodup_keys (d : Dictionary κ ν) : d.keys.Nodup := d.nodup

variable [DecidableEq κ]

/-- The value of a key. -/
def get? (d : Dictionary κ ν) (k : κ) : Option ν := d.entries.lookup k

/-- The entries after the value of a key has been computed from its old value. -/
def alterEntries (k : κ) (f : Option ν → ν) : List (κ × ν) → List (κ × ν)
  | [] => [(k, f none)]
  | (k', v) :: rest => if k' = k then (k', f (some v)) :: rest else (k', v) :: alterEntries k f rest

/-- A key that is changed keeps its place, a new key comes last. -/
theorem keys_alterEntries (k : κ) (f : Option ν → ν) (entries : List (κ × ν)) :
    (alterEntries k f entries).map Prod.fst =
      if k ∈ entries.map Prod.fst then entries.map Prod.fst else entries.map Prod.fst ++ [k] := by
  induction entries with
  | nil => rfl
  | cons entry entries ih =>
    obtain ⟨k', v⟩ := entry
    by_cases hk : k' = k
    · subst hk
      simp [alterEntries]
    · have hmem : k ∈ k' :: entries.map Prod.fst ↔ k ∈ entries.map Prod.fst := by
        simp [Ne.symm hk]
      rw [alterEntries, if_neg hk, List.map_cons, List.map_cons, ih]
      by_cases hin : k ∈ entries.map Prod.fst
      · rw [if_pos hin, if_pos (hmem.mpr hin)]
      · rw [if_neg hin, if_neg (mt hmem.mp hin), List.cons_append]

/-- The dictionary after the value of a key has been computed from its old value. -/
def alter (d : Dictionary κ ν) (k : κ) (f : Option ν → ν) : Dictionary κ ν where
  entries := alterEntries k f d.entries
  nodup := by
    rw [keys_alterEntries]
    split
    · exact d.nodup
    · rename_i hk
      exact List.nodup_append.mpr ⟨d.nodup, List.nodup_singleton k, by
        intro a ha b hb hab
        rw [List.mem_singleton] at hb
        exact hk (hb ▸ hab ▸ ha)⟩

/-- The keys after a change. -/
theorem mem_keys_alter (d : Dictionary κ ν) (k : κ) (f : Option ν → ν) (k' : κ) :
    k' ∈ (d.alter k f).keys ↔ k' = k ∨ k' ∈ d.keys := by
  have hkeys : (d.alter k f).keys = if k ∈ d.keys then d.keys else d.keys ++ [k] :=
    keys_alterEntries k f d.entries
  rw [hkeys]
  split
  · rename_i hk
    constructor
    · exact .inr
    · rintro (rfl | h)
      · exact hk
      · exact h
  · rw [List.mem_append, List.mem_singleton, or_comm]

/-- The values after a change. -/
theorem get?_alter (d : Dictionary κ ν) (k : κ) (f : Option ν → ν) (k' : κ) :
    (d.alter k f).get? k' = if k' = k then some (f (d.get? k)) else d.get? k' := by
  have hentries : ∀ entries : List (κ × ν), (alterEntries k f entries).lookup k' =
      if k' = k then some (f (entries.lookup k)) else entries.lookup k' := by
    intro entries
    induction entries with
    | nil =>
      rw [alterEntries, List.lookup_cons, List.lookup_nil, List.lookup_nil]
      by_cases h : k' = k
      · simp [h]
      · rw [if_neg h, beq_false_of_ne h]
    | cons entry entries ih =>
      obtain ⟨first, v⟩ := entry
      rw [alterEntries]
      by_cases hfirst : first = k
      · subst hfirst
        rw [if_pos rfl, List.lookup_cons, List.lookup_cons, List.lookup_cons]
        by_cases h : k' = first
        · simp [h]
        · rw [if_neg h, beq_false_of_ne h]
      · rw [if_neg hfirst, List.lookup_cons, ih, List.lookup_cons, List.lookup_cons,
          beq_false_of_ne (Ne.symm hfirst)]
        by_cases h : k' = k
        · subst h
          rw [if_pos rfl, beq_false_of_ne (Ne.symm hfirst), if_pos rfl]
        · rw [if_neg h, if_neg h]
  exact hentries d.entries

/-- The value of an entry is the value of its key. -/
theorem get?_of_mem (d : Dictionary κ ν) {k : κ} {v : ν} (h : (k, v) ∈ d.entries) :
    d.get? k = some v := by
  obtain ⟨before, after, heq⟩ := List.append_of_mem h
  refine List.lookup_eq_some_iff.mpr ⟨before, after, heq, ?_⟩
  intro entry hentry
  rw [bne_iff_ne]
  have hnodup := d.nodup
  rw [heq, List.map_append, List.map_cons] at hnodup
  have hdisjoint := (List.nodup_append.mp hnodup).2.2
  exact (hdisjoint _ (List.mem_map_of_mem hentry) _ List.mem_cons_self).symm

/-- The entries are the keys with their values. -/
theorem entries_eq_map (d : Dictionary κ ν) {value : κ → ν}
    (h : ∀ k ∈ d.keys, d.get? k = some (value k)) :
    d.entries = d.keys.map fun k => (k, value k) := by
  rw [keys, List.map_map]
  have hself : d.entries.map (fun entry => entry) = d.entries := List.map_id' _
  conv_lhs => rw [← hself]
  apply List.map_congr_left
  rintro ⟨k, v⟩ hentry
  have hkey : k ∈ d.keys := List.mem_map.mpr ⟨(k, v), hentry, rfl⟩
  have hvalue := h k hkey
  rw [d.get?_of_mem hentry, Option.some.injEq] at hvalue
  rw [Function.comp_apply, hvalue]

section Accumulation

variable (key : α → κ) (step : α → Option ν → ν)

/-- The dictionary that a list makes when each element changes the value of its key. -/
def accumulate (l : List α) : Dictionary κ ν :=
  l.foldl (fun d a => d.alter (key a) (step a)) empty

/-- One more element changes the value of its key. -/
theorem accumulate_concat (l : List α) (a : α) :
    accumulate key step (l ++ [a]) = (accumulate key step l).alter (key a) (step a) := by
  rw [accumulate, List.foldl_append]
  rfl

/-- The keys are those of the elements. -/
theorem mem_keys_accumulate (l : List α) (k : κ) :
    k ∈ (accumulate key step l).keys ↔ ∃ a ∈ l, key a = k := by
  induction l using List.reverseRecOn with
  | nil => simp [accumulate, empty, keys]
  | append_singleton l a ih =>
    rw [accumulate_concat, mem_keys_alter, ih]
    constructor
    · rintro (rfl | ⟨b, hb, rfl⟩)
      · exact ⟨a, by simp, rfl⟩
      · exact ⟨b, by simp [hb], rfl⟩
    · rintro ⟨b, hb, rfl⟩
      rcases List.mem_append.mp hb with hb | hb
      · exact .inr ⟨b, hb, rfl⟩
      · rw [List.mem_singleton.mp hb]
        exact .inl rfl

/-- The keys come in the order of the first elements with them. -/
theorem keys_accumulate [BEq κ] [LawfulBEq κ] (l : List α) :
    (accumulate key step l).keys = (l.map key).eraseDups := by
  induction l using List.reverseRecOn with
  | nil => rfl
  | append_singleton l a ih =>
    have halter := keys_alterEntries (key a) (step a) (accumulate key step l).entries
    have hmem : key a ∈ (accumulate key step l).entries.map Prod.fst ↔ key a ∈ l.map key := by
      change key a ∈ (accumulate key step l).keys ↔ _
      rw [ih, List.mem_eraseDups]
    rw [accumulate_concat, List.map_append, List.map_singleton, List.eraseDups_append,
      List.cons_removeAll, List.nil_removeAll, ← ih]
    refine halter.trans ?_
    by_cases h : key a ∈ l.map key
    · rw [if_pos (hmem.mpr h), if_neg (by simpa using h)]
      exact (List.append_nil _).symm
    · rw [if_neg (mt hmem.mp h), if_pos (by simpa using h)]
      rfl

/-- The value of a key is made by the elements with that key. -/
theorem get?_accumulate (l : List α) (k : κ) :
    (accumulate key step l).get? k =
      (l.filter fun a => key a = k).foldl (fun v a => some (step a v)) none := by
  induction l using List.reverseRecOn with
  | nil => rfl
  | append_singleton l a ih =>
    rw [accumulate_concat, get?_alter, List.filter_append, List.foldl_append]
    by_cases hk : k = key a
    · subst hk
      rw [if_pos rfl, ih]
      simp
    · rw [if_neg hk, ih]
      simp [Ne.symm hk]

/-- Lists with the same elements make the same keys, up to their order. -/
theorem keys_accumulate_perm {l m : List α} (h : l.Perm m) :
    (accumulate key step l).keys.Perm (accumulate key step m).keys := by
  rw [List.perm_ext_iff_of_nodup (nodup_keys _) (nodup_keys _)]
  intro k
  rw [mem_keys_accumulate, mem_keys_accumulate]
  exact exists_congr fun a => and_congr_left fun _ => h.mem_iff

end Accumulation

section Groups

variable (key : α → κ)

/-- The elements of a list under their keys. -/
def groups (l : List α) : Dictionary κ (List α) :=
  accumulate key (fun a group => group.getD [] ++ [a]) l

/-- A group has the elements with its key, in their order. -/
theorem entries_groups (l : List α) :
    (groups key l).entries =
      (groups key l).keys.map fun k => (k, l.filter fun a => key a = k) := by
  apply entries_eq_map
  intro k hk
  obtain ⟨a, ha, rfl⟩ := (mem_keys_accumulate key _ l k).mp hk
  have hgroup : ∀ (m : List α) (start : Option (List α)), m ≠ [] →
      m.foldl (fun v a => some (v.getD [] ++ [a])) start = some (start.getD [] ++ m) := by
    intro m
    induction m with
    | nil => exact fun _ hne => absurd rfl hne
    | cons b m ih =>
      intro start _
      by_cases hm : m = []
      · subst hm
        rfl
      · rw [List.foldl_cons, ih _ hm]
        simp
  rw [groups, get?_accumulate, hgroup _ none]
  · rfl
  · exact List.ne_nil_of_mem (List.mem_filter.mpr ⟨ha, by simp⟩)

/-- The groups together have the elements of the list. -/
theorem flatMap_groups_perm (l : List α) :
    ((groups key l).entries.flatMap Prod.snd).Perm l := by
  have halter : ∀ (a : α) (entries : List (κ × List α)),
      ((alterEntries (key a) (fun group => group.getD [] ++ [a]) entries).flatMap Prod.snd).Perm
        (entries.flatMap Prod.snd ++ [a]) := by
    intro a entries
    induction entries with
    | nil => exact List.Perm.refl _
    | cons entry entries ih =>
      obtain ⟨k, group⟩ := entry
      rw [alterEntries]
      split
      · rw [List.flatMap_cons, List.flatMap_cons, Option.getD_some, List.append_assoc,
          List.append_assoc]
        exact List.Perm.append_left _ List.perm_append_comm
      · rw [List.flatMap_cons, List.flatMap_cons, List.append_assoc]
        exact List.Perm.append_left _ ih
  induction l using List.reverseRecOn with
  | nil => exact List.Perm.refl _
  | append_singleton l a ih =>
    rw [groups, accumulate_concat]
    exact (halter a _).trans (ih.append_right _)

end Groups

section Counter

/-- How often each element occurs in a list. -/
def counter (l : List κ) : Dictionary κ ℕ := accumulate (fun k => k) (fun _ n => n.getD 0 + 1) l

/-- The number of an element is how often it occurs. -/
theorem entries_counter (l : List κ) :
    (counter l).entries = (counter l).keys.map fun k => (k, l.count k) := by
  apply entries_eq_map
  intro k hk
  obtain ⟨a, ha, rfl⟩ := (mem_keys_accumulate (fun k => k) _ l k).mp hk
  have hcount : ∀ (m : List κ) (start : Option ℕ), m ≠ [] →
      m.foldl (fun n _ => some (n.getD 0 + 1)) start = some (start.getD 0 + m.length) := by
    intro m
    induction m with
    | nil => exact fun _ hne => absurd rfl hne
    | cons b m ih =>
      intro start _
      by_cases hm : m = []
      · subst hm
        rfl
      · rw [List.foldl_cons, ih _ hm, Option.getD_some, List.length_cons]
        congr 1
        omega
  rw [counter, get?_accumulate, hcount _ none]
  · rw [Option.getD_none, Nat.zero_add, List.count_eq_length_filter]
    rfl
  · exact List.ne_nil_of_mem (List.mem_filter.mpr ⟨ha, by simp⟩)

/-- The counts add up to the length of the list. -/
theorem sum_counter (l : List κ) : ((counter l).entries.map Prod.snd).sum = l.length := by
  have halter : ∀ (k : κ) (entries : List (κ × ℕ)),
      ((alterEntries k (fun n => n.getD 0 + 1) entries).map Prod.snd).sum =
        (entries.map Prod.snd).sum + 1 := by
    intro k entries
    induction entries with
    | nil => rfl
    | cons entry entries ih =>
      obtain ⟨k', n⟩ := entry
      rw [alterEntries]
      split
      · rw [List.map_cons, List.map_cons, List.sum_cons, List.sum_cons, Option.getD_some]
        omega
      · rw [List.map_cons, List.map_cons, List.sum_cons, List.sum_cons, ih]
        omega
  induction l using List.reverseRecOn with
  | nil => rfl
  | append_singleton l k ih =>
    have hstep := halter k (counter l).entries
    rw [ih] at hstep
    rw [counter, accumulate_concat, List.length_append]
    exact hstep

/-- Lists with the same elements have the same counts, up to their order. -/
theorem entries_counter_perm {l m : List κ} (h : l.Perm m) :
    (counter l).entries.Perm (counter m).entries := by
  have hcount : (fun k => (k, l.count k)) = fun k => (k, m.count k) := by
    funext k
    rw [h.count_eq]
  rw [entries_counter, entries_counter, hcount]
  exact (keys_accumulate_perm _ _ h).map _

end Counter

section OfList

/-- The dictionary with the values of some pairs, the last one for each key. -/
def ofList (l : List (κ × ν)) : Dictionary κ ν :=
  accumulate Prod.fst (fun entry _ => entry.2) l

/-- One more pair sets the value of its key. -/
theorem get?_ofList_concat (l : List (κ × ν)) (entry : κ × ν) (k : κ) :
    (ofList (l ++ [entry])).get? k = if k = entry.1 then some entry.2 else (ofList l).get? k := by
  rw [ofList, accumulate_concat, get?_alter]
  rfl

/-- The value of a key is that of the last pair with the key. -/
theorem get?_ofList (l : List (κ × ν)) (k : κ) :
    (ofList l).get? k = (l.reverse.find? fun entry => entry.1 = k).map Prod.snd := by
  induction l using List.reverseRecOn with
  | nil => rfl
  | append_singleton l entry ih =>
    rw [get?_ofList_concat, List.reverse_concat, List.find?_cons]
    by_cases hk : k = entry.1
    · simp [hk]
    · simp [hk, Ne.symm hk, ih]

/-- Pairs with other keys do not change the value of a key. -/
theorem get?_ofList_append_of_not_mem (l : List (κ × ν)) {fields : List (κ × ν)} {k : κ}
    (h : k ∉ fields.map Prod.fst) : (ofList (l ++ fields)).get? k = (ofList l).get? k := by
  induction fields using List.reverseRecOn with
  | nil => rw [List.append_nil]
  | append_singleton fields entry ih =>
    rw [List.map_append, List.mem_append, not_or, List.map_singleton, List.mem_singleton] at h
    rw [← List.append_assoc, get?_ofList_concat, if_neg h.2, ih h.1]

/-- Without a pair there is no value. -/
theorem get?_ofList_eq_none {l : List (κ × ν)} {k : κ} (h : k ∉ l.map Prod.fst) :
    (ofList l).get? k = none :=
  get?_ofList_append_of_not_mem [] h

/-- Pairs with different keys that come last set the values of their keys. -/
theorem get?_ofList_append_of_mem (l : List (κ × ν)) {fields : List (κ × ν)} {k : κ} {v : ν}
    (hnodup : (fields.map Prod.fst).Nodup) (h : (k, v) ∈ fields) :
    (ofList (l ++ fields)).get? k = some v := by
  obtain ⟨before, after, rfl⟩ := List.append_of_mem h
  rw [List.map_append, List.map_cons] at hnodup
  have hafter : k ∉ after.map Prod.fst :=
    (List.nodup_cons.mp (List.nodup_append.mp hnodup).2.1).1
  have hsplit : l ++ (before ++ (k, v) :: after) = (l ++ before ++ [(k, v)]) ++ after := by simp
  rw [hsplit, get?_ofList_append_of_not_mem _ hafter, get?_ofList_concat, if_pos rfl]

/-- The values of pairs that are made from their keys. -/
theorem get?_ofList_map {l : List κ} (value : κ → ν) {k : κ} (h : k ∈ l) :
    (ofList (l.map fun k => (k, value k))).get? k = some (value k) := by
  induction l using List.reverseRecOn with
  | nil => cases h
  | append_singleton l k' ih =>
    rw [List.map_append, List.map_singleton, get?_ofList_concat]
    by_cases hk : k = k'
    · rw [if_pos hk, hk]
    · rw [if_neg hk]
      rcases List.mem_append.mp h with h | h
      · exact ih h
      · exact absurd (List.mem_singleton.mp h) hk

/-- Pairs with the same keys and related values make dictionaries with the same keys and related
values. -/
theorem forall₂_ofList {R : ν → ν → Prop} {l m : List (κ × ν)}
    (h : List.Forall₂ (fun a b => a.1 = b.1 ∧ R a.2 b.2) l m) :
    List.Forall₂ (fun a b => a.1 = b.1 ∧ R a.2 b.2) (ofList l).entries (ofList m).entries := by
  have halter : ∀ {k : κ} {v w : ν} {es fs : List (κ × ν)}, R v w →
      List.Forall₂ (fun a b => a.1 = b.1 ∧ R a.2 b.2) es fs →
      List.Forall₂ (fun a b => a.1 = b.1 ∧ R a.2 b.2) (alterEntries k (fun _ => v) es)
        (alterEntries k (fun _ => w) fs) := by
    intro k v w es fs hvw hrelated
    induction hrelated with
    | nil => exact .cons ⟨rfl, hvw⟩ .nil
    | @cons a b es fs hab hrest ih =>
      obtain ⟨k₁, v₁⟩ := a
      obtain ⟨k₂, v₂⟩ := b
      obtain ⟨rfl, hv⟩ := hab
      rw [alterEntries, alterEntries]
      split
      · exact .cons ⟨rfl, hvw⟩ hrest
      · exact .cons ⟨rfl, hv⟩ ih
  have hfold : ∀ {d e : Dictionary κ ν},
      List.Forall₂ (fun a b => a.1 = b.1 ∧ R a.2 b.2) d.entries e.entries →
      List.Forall₂ (fun a b => a.1 = b.1 ∧ R a.2 b.2)
        (l.foldl (fun d entry => d.alter entry.1 fun _ => entry.2) d).entries
        (m.foldl (fun d entry => d.alter entry.1 fun _ => entry.2) e).entries := by
    induction h with
    | nil => exact fun hstart => hstart
    | @cons a b l m hab _ ih =>
      intro d e hstart
      obtain ⟨hkey, hvalue⟩ := hab
      rw [List.foldl_cons, List.foldl_cons]
      apply ih
      rw [hkey]
      exact halter hvalue hstart
  exact hfold (d := empty) (e := empty) .nil

end OfList

section Sorting

variable [LE κ] [DecidableLE κ]

/-- The entries in the order of their keys. -/
def sortedEntries (d : Dictionary κ ν) : List (κ × ν) :=
  d.entries.insertionSort fun a b => a.1 ≤ b.1

omit [DecidableEq κ] in
/-- Sorting keeps the entries. -/
theorem sortedEntries_perm (d : Dictionary κ ν) : d.sortedEntries.Perm d.entries :=
  List.perm_insertionSort _ _

/-- The groups in the order of their keys. -/
theorem sortedEntries_groups (key : α → κ) (l : List α) :
    (groups key l).sortedEntries =
      ((groups key l).keys.insertionSort (· ≤ ·)).map fun k =>
        (k, l.filter fun a => key a = k) := by
  rw [sortedEntries, entries_groups]
  exact (List.map_insertionSort (fun a b : κ => a ≤ b) (fun a b : κ × List α => a.1 ≤ b.1) _ _
    fun _ _ _ _ => Iff.rfl).symm

variable [Std.Total (α := κ) (· ≤ ·)] [Std.Antisymm (α := κ) (· ≤ ·)] [IsTrans κ (· ≤ ·)]

/-- Lists with the same elements have the same sorted keys. -/
theorem sorted_keys_eq (key : α → κ) {l m : List α} (h : l.Perm m) :
    (groups key l).keys.insertionSort (· ≤ ·) = (groups key m).keys.insertionSort (· ≤ ·) := by
  have hperm : ((groups key l).keys.insertionSort (· ≤ ·)).Perm
      ((groups key m).keys.insertionSort (· ≤ ·)) :=
    (List.perm_insertionSort _ _).trans
      ((keys_accumulate_perm key _ h).trans (List.perm_insertionSort _ _).symm)
  exact hperm.eq_of_pairwise (fun _ _ _ _ hab hba => antisymm hab hba)
    (List.pairwise_insertionSort _ _) (List.pairwise_insertionSort _ _)

end Sorting

end Dictionary

end PqtlsLab
