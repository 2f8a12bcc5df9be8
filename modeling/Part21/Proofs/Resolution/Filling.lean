import Mathlib.Data.List.Nodup
import Part21.Proofs.Resolution.Session

set_option autoImplicit false

/-!
# Filling tables

A table that is filled with records that all have names, no two of them the same, takes them
all.  Then it has each record under its name and no others, so which records it has does not
depend on the order in which they came (`Table.extend_eq_ok`).
-/

namespace Part21

namespace Record

/-- The names of named records, none left out. -/
theorem map_id_eq {records : List Record} (hnamed : ∀ r ∈ records, r.id.isSome = true) :
    (records.filterMap Record.id).map some = records.map Record.id := by
  rw [List.map_filterMap_some_eq_filter_map_isSome, List.filter_eq_self]
  exact List.forall_mem_map.mpr hnamed

theorem nodup_map_id {records : List Record} (hnamed : ∀ r ∈ records, r.id.isSome = true) :
    (records.map Record.id).Nodup ↔ (records.filterMap Record.id).Nodup := by
  rw [← map_id_eq hnamed, List.nodup_map_iff fun _ _ => Option.some.inj]

end Record

namespace Population

variable {records more : Population}

/-- A name has the record that stands under it. -/
theorem find?_eq_some {id : Int} {r : Record} :
    records.find? id = some r ↔ (id, r) ∈ records.entries := by
  unfold find?
  rw [Option.map_eq_some_iff]
  constructor
  · rintro ⟨⟨name, own⟩, hfound, rfl⟩
    have hname := List.find?_some hfound
    rw [decide_eq_true_eq] at hname
    exact hname ▸ List.mem_of_find?_eq_some hfound
  · intro hmem
    cases hfound : records.entries.find? fun entry => entry.1 = id with
    | none => exact absurd (decide_eq_true rfl) (List.find?_eq_none.mp hfound _ hmem)
    | some entry =>
      have hname := List.find?_some hfound
      rw [decide_eq_true_eq] at hname
      have hsame := List.inj_on_of_nodup_map records.distinct
        (List.mem_of_find?_eq_some hfound) hmem hname
      exact ⟨entry, rfl, hsame ▸ rfl⟩

theorem find?_add {r : Record} (hadd : records.add r = .ok more) {id : Int} {s : Record} :
    more.find? id = some s ↔ records.find? id = some s ∨ (r.id = some id ∧ s = r) := by
  obtain ⟨name, hname, hentries⟩ := entries_of_add hadd
  rw [find?_eq_some, find?_eq_some, hentries, List.mem_append, List.mem_singleton, Prod.mk.injEq,
    hname, Option.some.injEq, eq_comm (a := id)]

/-- An added record is put behind the others. -/
theorem records_add {r : Record} (hadd : records.add r = .ok more) :
    more.records = records.records ++ [r] := by
  obtain ⟨name, _, hentries⟩ := entries_of_add hadd
  rw [Population.records, hentries, List.map_append]
  rfl

theorem ids_eq (p : Population) : p.ids = p.records.filterMap Record.id := by
  rw [ids, Population.records, List.filterMap_map, ← List.filterMap_eq_map]
  exact List.filterMap_congr fun entry hentry => (p.named entry hentry).symm

/-- All records have names. -/
theorem isSome_of_mem {p : Population} {r : Record} (h : r ∈ p.records) : r.id.isSome = true := by
  obtain ⟨entry, hentry, rfl⟩ := List.mem_map.mp h
  rw [p.named entry hentry]
  rfl

/-- A record is taken if its name is new. -/
theorem add_of_new {r : Record} {id : Int} (hname : r.id = some id)
    (hnew : records.find? id = none) : ∃ more, records.add r = .ok more := by
  unfold add
  split
  · rename_i hnone
    rw [hnone] at hname
    cases hname
  · rename_i other hother
    obtain rfl : other = id := Option.some.inj (hother.symm.trans hname)
    split
    · rename_i first hfirst
      rw [hnew] at hfirst
      cases hfirst
    · exact ⟨_, rfl⟩

end Population

namespace Table

/-- What every addition preserves, filling preserves. -/
theorem extend_invariant {P : Table → Prop}
    (hadd : ∀ {t u : Table} {r : Record}, t.add r = .ok u → P t → P u) (rs : List Record)
    {t : Table} (h : P t) : P (t.extend rs).2 := by
  induction rs generalizing t with
  | nil => exact h
  | cons r rest ih =>
    unfold extend
    split
    · exact h
    · rename_i u hu
      exact ih (hadd hu h)

/-- Records are put behind the others in their order. -/
theorem records_extend {rs : List Record} {t u : Table} (hextend : t.extend rs = (.ok (), u)) :
    u.basis.population.records = t.basis.population.records ++ rs := by
  induction rs generalizing t with
  | nil =>
    cases hextend
    rw [List.append_nil]
  | cons r rest ih =>
    unfold extend at hextend
    split at hextend
    · cases hextend
    · rename_i v hv
      obtain ⟨_, more, hmore, rfl⟩ := add_eq_ok hv
      rw [ih hextend, Population.records_add hmore, List.append_assoc]
      rfl

theorem ids_extend {rs : List Record} {t u : Table} (hextend : t.extend rs = (.ok (), u)) :
    u.basis.population.ids = t.basis.population.ids ++ rs.filterMap Record.id := by
  rw [Population.ids_eq, Population.ids_eq, records_extend hextend, List.filterMap_append]

/-- Only records that have names are taken. -/
theorem named_of_extend {rs : List Record} {t u : Table} (hextend : t.extend rs = (.ok (), u)) :
    ∀ r ∈ rs, r.id.isSome = true := by
  intro r hr
  refine Population.isSome_of_mem (p := u.basis.population) ?_
  rw [records_extend hextend]
  exact List.mem_append_right _ hr

/-- A new table takes only records of different names. -/
theorem distinct_of_extend_empty {registry : Registry} {makers : Makers} {settings : Settings}
    {rs : List Record} {u : Table}
    (hextend : (empty registry makers settings).extend rs = (.ok (), u)) :
    (rs.map Record.id).Nodup := by
  have hids : u.basis.population.ids = rs.filterMap Record.id := ids_extend hextend
  have hdistinct : (rs.filterMap Record.id).Nodup := hids ▸ u.basis.population.distinct
  exact (Record.nodup_map_id (named_of_extend hextend)).mpr hdistinct

/-- A table that is not sealed yet takes records with new and distinct names.  Behind that, it
has those it had and the new ones. -/
theorem extend_eq_ok {t : Table} (hopen : t.isSealed = false) {rs : List Record}
    (hnamed : ∀ r ∈ rs, r.id.isSome = true) (hdistinct : (rs.map Record.id).Nodup)
    (hnew : ∀ r ∈ rs, ∀ id ∈ r.id, t.basis.population.find? id = none) :
    ∃ population,
      t.extend rs =
        (.ok (), { t with basis := { t.basis with population := population } }) ∧
      ∀ id s, population.find? id = some s ↔
        t.basis.population.find? id = some s ∨ (s ∈ rs ∧ s.id = some id) := by
  induction rs generalizing t with
  | nil => exact ⟨t.basis.population, rfl, by simp⟩
  | cons r rest ih =>
    obtain ⟨hname, hothers⟩ := List.forall_mem_cons.mp hnamed
    obtain ⟨id, hid⟩ := Option.isSome_iff_exists.mp hname
    obtain ⟨hfresh, hnew⟩ := List.forall_mem_cons.mp hnew
    obtain ⟨hfirst, hdistinct⟩ := List.nodup_cons.mp hdistinct
    obtain ⟨more, hmore⟩ := Population.add_of_new hid (hfresh id hid)
    have hadd : t.add r = .ok { t with basis := { t.basis with population := more } } := by
      unfold add
      rw [hopen, hmore]
      rfl
    have hnew' : ∀ s ∈ rest, ∀ name ∈ s.id, more.find? name = none := by
      intro s hs name hname
      rw [Option.eq_none_iff_forall_ne_some]
      intro own hown
      rcases (Population.find?_add hmore).mp hown with hold | ⟨hsame, _⟩
      · rw [hnew s hs name hname] at hold
        cases hold
      · exact hfirst (List.mem_map.mpr ⟨s, hs, (Option.mem_def.mp hname).trans hsame.symm⟩)
    obtain ⟨population, hextend, hfind⟩ :=
      ih (t := { t with basis := { t.basis with population := more } }) hopen hothers hdistinct
        hnew'
    refine ⟨population, ?_, fun name s => ?_⟩
    · rw [extend, hadd]
      exact hextend
    · rw [hfind, Population.find?_add hmore, List.mem_cons, or_assoc]
      refine or_congr_right ⟨?_, ?_⟩
      · rintro (⟨hr, rfl⟩ | ⟨hmem, hs⟩)
        · exact ⟨.inl rfl, hr⟩
        · exact ⟨.inr hmem, hs⟩
      · rintro ⟨rfl | hmem, hs⟩
        · exact .inl ⟨hs, rfl⟩
        · exact .inr ⟨hmem, hs⟩

/-- A new table has the records it was filled with, each under its name. -/
theorem extend_empty_eq_ok (registry : Registry) (makers : Makers) (settings : Settings)
    {rs : List Record} (hnamed : ∀ r ∈ rs, r.id.isSome = true)
    (hdistinct : (rs.map Record.id).Nodup) :
    ∃ population,
      (empty registry makers settings).extend rs =
        (.ok (), ⟨⟨registry, makers, settings, population⟩, false, .initial⟩) ∧
      ∀ id s, population.find? id = some s ↔ s ∈ rs ∧ s.id = some id := by
  obtain ⟨population, hextend, hfind⟩ :=
    extend_eq_ok (t := empty registry makers settings) rfl hnamed hdistinct fun _ _ _ _ => rfl
  refine ⟨population, hextend, fun id s => (hfind id s).trans ?_⟩
  exact or_iff_right nofun

end Table

end Part21
