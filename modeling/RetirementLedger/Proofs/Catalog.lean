import RetirementLedger.Catalog

namespace RetirementLedger.Catalog

variable {α : Type}

theorem lookup_cons_ite (name : String) (entry : String × α) (rest : List (String × α)) :
    (entry :: rest).lookup name = if name = entry.1 then some entry.2 else rest.lookup name := by
  obtain ⟨key, value⟩ := entry
  by_cases same : name = key
  · simp [same]
  · have differs : (name == key) = false := beq_eq_false_iff_ne.mpr same
    simp [List.lookup_cons, differs, same]

theorem lookup_place (name other : String) (value : α) (entries : List (String × α)) :
    (place name value entries).lookup other =
      if other = name then some value else entries.lookup other := by
  induction entries with
  | nil => simp [place, lookup_cons_ite]
  | cons entry rest ih =>
      unfold place
      split
      · rw [lookup_cons_ite]
      · split
        · rename_i equal
          by_cases same : other = name <;> simp [lookup_cons_ite, same, ← equal]
        · rename_i different
          by_cases same : other = entry.1
          · simp [lookup_cons_ite, same, Ne.symm different]
          · simp [lookup_cons_ite, same, ih]

theorem lookup_filter (keep : String → Bool) (name : String) (entries : List (String × α)) :
    (entries.filter (keep ·.1)).lookup name = if keep name then entries.lookup name else none := by
  induction entries with
  | nil => simp
  | cons entry rest ih =>
      by_cases same : name = entry.1
      · subst same
        cases kept : keep entry.1 <;> simp [lookup_cons_ite, kept, ih]
      · cases kept : keep entry.1 <;> simp [lookup_cons_ite, kept, same, ih]

@[simp] theorem find?_insert (c : Catalog α) (name other : String) (value : α) :
    (c.insert name value).find? other = if other = name then some value else c.find? other :=
  lookup_place name other value c.entries

@[simp] theorem find?_retain (c : Catalog α) (keep : String → Bool) (name : String) :
    (c.retain keep).find? name = if keep name then c.find? name else none :=
  lookup_filter keep name c.entries

@[simp] theorem find?_erase (c : Catalog α) (name other : String) :
    (c.erase name).find? other = if other = name then none else c.find? other := by
  by_cases same : other = name <;> simp [erase, same]

@[simp] theorem find?_modify (c : Catalog α) (name other : String) (f : α → α) :
    (c.modify name f).find? other = if other = name then (c.find? name).map f else c.find? other := by
  unfold modify
  cases known : c.find? name with
  | none => by_cases same : other = name <;> simp [same, known]
  | some value => simp

theorem ext {c d : Catalog α} (same : c.entries = d.entries) : c = d := by
  cases c
  cases d
  cases same
  rfl

theorem mem_of_lookup {entries : List (String × α)} {name : String} {value : α}
    (found : entries.lookup name = some value) : (name, value) ∈ entries := by
  induction entries with
  | nil => cases found
  | cons entry rest ih =>
      rw [lookup_cons_ite] at found
      split at found
      · next same =>
          cases found
          rw [same]
          exact .head _
      · exact .tail _ (ih found)

theorem find?_eq_some_iff {c : Catalog α} {name : String} {value : α} :
    c.find? name = some value ↔ (name, value) ∈ c.entries := by
  obtain ⟨entries, ascending⟩ := c
  refine ⟨mem_of_lookup, fun member => ?_⟩
  change entries.lookup name = some value
  induction entries with
  | nil => cases member
  | cons entry rest ih =>
      obtain ⟨before, ascending⟩ := List.pairwise_cons.mp ascending
      rw [lookup_cons_ite]
      rcases List.mem_cons.mp member with rfl | later
      · rw [if_pos rfl]
      · have other : name ≠ entry.1 := by
          intro same
          have less : entry.1 < name := before _ later
          rw [same] at less
          exact String.lt_irrefl _ less
        rw [if_neg other]
        exact ih ascending later

theorem mem_values {c : Catalog α} {value : α} :
    value ∈ c.values ↔ ∃ name, c.find? name = some value := by
  simp only [find?_eq_some_iff, values, List.mem_map]
  constructor
  · rintro ⟨⟨name, value⟩, member, rfl⟩
    exact ⟨name, member⟩
  · rintro ⟨name, member⟩
    exact ⟨(name, value), member, rfl⟩

theorem nodup_names (c : Catalog α) : c.names.Nodup :=
  List.pairwise_map.mpr (c.ascending.imp fun less same => by
    rw [same] at less
    exact String.lt_irrefl _ less)

theorem ext_find? {c d : Catalog α} (same : ∀ name, c.find? name = d.find? name) : c = d := by
  have nodup (c : Catalog α) : c.entries.Nodup := (List.Pairwise.of_map _ (fun _ _ other same =>
    other (congrArg _ same)) c.nodup_names)
  refine ext (List.Perm.eq_of_pairwise (fun a b _ _ less more => ?_) c.ascending d.ascending
    ((List.perm_ext_iff_of_nodup (nodup c) (nodup d)).mpr fun e => ?_))
  · exact absurd (String.lt_trans less more) (String.lt_irrefl _)
  · rw [← find?_eq_some_iff, same, find?_eq_some_iff]

theorem mem_names {c : Catalog α} {name : String} :
    name ∈ c.names ↔ (c.find? name).isSome = true := by
  rw [Option.isSome_iff_exists, names, List.mem_map]
  constructor
  · rintro ⟨⟨name, value⟩, member, rfl⟩
    exact ⟨value, find?_eq_some_iff.mpr member⟩
  · rintro ⟨value, found⟩
    exact ⟨(name, value), find?_eq_some_iff.mp found, rfl⟩

theorem countP_values (c : Catalog α) (p : α → Bool) :
    c.values.countP p = c.names.countP fun name => (c.find? name).any p := by
  rw [values, names, List.countP_map, List.countP_map]
  refine List.countP_congr fun e member => ?_
  have found : c.find? e.1 = some e.2 := find?_eq_some_iff.mpr member
  simp [found]

def gained (c d : Catalog α) : List String := d.names.filter fun name => !c.contains name

theorem mem_gained {c d : Catalog α} {name : String} :
    name ∈ c.gained d ↔ (d.find? name).isSome = true ∧ c.find? name = none := by
  simp [gained, mem_names, contains]

theorem nodup_gained (c d : Catalog α) : (c.gained d).Nodup := d.nodup_names.filter _

theorem gained_eq_nil {c d : Catalog α}
    (known : ∀ name, (d.find? name).isSome = true → (c.find? name).isSome = true) :
    c.gained d = [] := by
  refine List.eq_nil_iff_forall_not_mem.mpr fun name member => ?_
  obtain ⟨present, absent⟩ := mem_gained.mp member
  have kept := known name present
  rw [absent] at kept
  cases kept

/-- A change adds to the size what is gained and takes off what is lost. -/
theorem size_add_gained (c d : Catalog α) :
    d.size + (d.gained c).length = c.size + (c.gained d).length := by
  have parts (c d : Catalog α) :
      (d.names.filter c.contains).length + (c.gained d).length = d.size := by
    have apart := (List.filter_append_perm c.contains d.names).length_eq
    rw [List.length_append] at apart
    exact apart.trans (List.length_map _)
  have common : (d.names.filter c.contains).Perm (c.names.filter d.contains) := by
    refine (List.perm_ext_iff_of_nodup (d.nodup_names.filter _) (c.nodup_names.filter _)).mpr
      fun name => ?_
    rw [List.mem_filter, List.mem_filter, mem_names, mem_names]
    exact And.comm
  have before := parts d c
  have after := parts c d
  have same := common.length_eq
  omega

variable {β : Type} (f : α → β)

theorem lookup_map (name : String) (entries : List (String × α)) :
    (entries.map fun e => (e.1, f e.2)).lookup name = (entries.lookup name).map f := by
  induction entries with
  | nil => rfl
  | cons entry rest ih =>
      rw [List.map_cons, lookup_cons_ite, lookup_cons_ite, ih]
      split <;> rfl

theorem map_place (name : String) (value : α) (entries : List (String × α)) :
    (place name value entries).map (fun e => (e.1, f e.2)) =
      place name (f value) (entries.map fun e => (e.1, f e.2)) := by
  induction entries with
  | nil => rfl
  | cons entry rest ih =>
      simp only [place, List.map_cons]
      split
      · rfl
      · split
        · rfl
        · rw [List.map_cons, ih]

theorem find?_map (c : Catalog α) (name : String) : (c.map f).find? name = (c.find? name).map f :=
  lookup_map f name c.entries

theorem map_insert (c : Catalog α) (name : String) (value : α) :
    (c.insert name value).map f = (c.map f).insert name (f value) :=
  ext (map_place f name value c.entries)

end RetirementLedger.Catalog
