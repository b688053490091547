import AccessPattern.Toml.Node
import Mathlib.Data.List.Nodup

/-!
# Keys of TOML tables

Whatever changes a table keeps its keys distinct, and those of the tables in it however deep they
lie: keys are added where they are missing, and what is there already is exchanged in its place or
moved to the end.
-/

namespace AccessPattern.Toml

/-- Neither the table of these entries nor any table among them has a key twice. -/
inductive Entries.Distinct : Entries → Prop
  | intro {entries : Entries} (nodup : (entries.map Prod.fst).Nodup)
      (table : ∀ key origin inner, (key, Node.table origin inner) ∈ entries → Distinct inner)
      (tables : ∀ key items, (key, Node.tables items) ∈ entries →
        ∀ inner ∈ items, Distinct inner) :
      Distinct entries

/-- No table that can be reached in a node has a key twice. -/
def Node.Distinct : Node → Prop
  | .table _ entries => Entries.Distinct entries
  | .tables items => ∀ entries ∈ items, Entries.Distinct entries
  | _ => True

namespace Entries

variable {entries next : Entries} {key : String} {node : Node}

/-- Keys are distinct at all levels when they are on the first, and below each of them. -/
theorem distinct_iff :
    Distinct entries ↔ (entries.map Prod.fst).Nodup ∧ ∀ entry ∈ entries, entry.2.Distinct := by
  constructor
  · rintro ⟨nodup, table, tables⟩
    refine ⟨nodup, fun ⟨key, node⟩ hentry => ?_⟩
    cases node with
    | table origin inner => exact table key origin inner hentry
    | tables items => exact tables key items hentry
    | text | integer | float | boolean | dateTime | array => trivial
  · rintro ⟨nodup, nodes⟩
    exact ⟨nodup, fun key origin inner hentry => nodes _ hentry,
      fun key items hentry => nodes _ hentry⟩

/-- A table without entries has no key twice. -/
@[simp] theorem distinct_nil : Distinct [] :=
  distinct_iff.mpr ⟨List.nodup_nil, List.forall_mem_nil _⟩

/-- A key is not found when it is none of the keys. -/
theorem lookup_eq_none_iff_notMem : entries.lookup key = none ↔ key ∉ entries.map Prod.fst := by
  rw [List.lookup_eq_none_iff, List.mem_map]
  constructor
  · rintro h ⟨entry, hentry, rfl⟩
    simpa using h entry hentry
  · intro h entry hentry
    simpa using fun heq : key = entry.1 => h ⟨entry, hentry, heq.symm⟩

/-- When no key is there twice, every entry is found under its key. -/
theorem lookup_eq_some_of_mem (hnodup : (entries.map Prod.fst).Nodup)
    (hentry : (key, node) ∈ entries) : entries.lookup key = some node := by
  obtain ⟨before, after, rfl⟩ := List.append_of_mem hentry
  refine List.lookup_eq_some_iff.mpr ⟨before, after, rfl, fun entry hbefore => ?_⟩
  rw [List.map_append, List.map_cons] at hnodup
  have hdisjoint := (List.nodup_append.mp hnodup).2.2 entry.1 (List.mem_map_of_mem hbefore)
  exact bne_iff_ne.mpr (Ne.symm (hdisjoint key List.mem_cons_self))

namespace Distinct

/-- What a key stands for has no key twice. -/
theorem of_lookup (h : Distinct entries) (hlookup : entries.lookup key = some node) :
    node.Distinct := by
  obtain ⟨before, after, rfl, -⟩ := List.lookup_eq_some_iff.mp hlookup
  exact (distinct_iff.mp h).2 (key, node) (by simp)

/-- A key that is missing may be added at the end. -/
theorem concat (h : Distinct entries) (hkey : key ∉ entries.map Prod.fst) (hnode : node.Distinct) :
    Distinct (entries ++ [(key, node)]) := by
  obtain ⟨hnodup, hnodes⟩ := distinct_iff.mp h
  refine distinct_iff.mpr ⟨?_, ?_⟩
  · simpa [List.nodup_append] using ⟨hnodup, fun name old hmem heq => hkey (by
      simpa using ⟨old, heq ▸ hmem⟩)⟩
  · simpa [or_imp, forall_and] using ⟨fun name old hmem => hnodes (name, old) hmem, hnode⟩

/-- The value of a key may be exchanged. -/
theorem exchange (h : Distinct entries) (hnode : node.Distinct) :
    Distinct (entries.exchange key node) := by
  obtain ⟨hnodup, hnodes⟩ := distinct_iff.mp h
  refine distinct_iff.mpr ⟨?_, ?_⟩
  · have hkeys : (entries.exchange key node).map Prod.fst = entries.map Prod.fst := by
      rw [Entries.exchange, List.map_map]
      refine List.map_congr_left fun entry _ => ?_
      dsimp only [Function.comp_apply]
      split <;> rfl
    rwa [hkeys]
  · rw [Entries.exchange, List.forall_mem_map]
    intro entry hentry
    dsimp only
    split
    · exact hnode
    · exact hnodes entry hentry

/-- A key may be left out. -/
theorem without (h : Distinct entries) : Distinct (entries.without key) := by
  obtain ⟨hnodup, hnodes⟩ := distinct_iff.mp h
  have hsublist : (entries.without key).Sublist entries := List.filter_sublist
  exact distinct_iff.mpr ⟨(hsublist.map _).nodup hnodup,
    fun entry hentry => hnodes entry (hsublist.subset hentry)⟩

end Distinct

/-- A change of the table at the end of a path that keeps keys distinct there keeps them distinct
everywhere. -/
theorem distinct_updateAt {dotted : Bool} {change : Origin → Entries → Option Entries}
    (hchange : ∀ {origin inner changed}, Distinct inner → change origin inner = some changed →
      Distinct changed)
    {path : List String} {origin : Origin} (h : Distinct entries)
    (hupdate : updateAt dotted change path origin entries = some next) : Distinct next := by
  induction path generalizing origin entries next with
  | nil => exact hchange h hupdate
  | cons key path ih =>
    unfold updateAt at hupdate
    split at hupdate
    · next hlookup =>
      obtain ⟨inner, hinner, hnext⟩ := Option.bind_eq_some_iff.mp hupdate
      rw [← Option.some.inj hnext]
      exact h.concat (lookup_eq_none_iff_notMem.mp hlookup) (ih distinct_nil hinner)
    · next hlookup =>
      split at hupdate
      · contradiction
      · obtain ⟨inner, hinner, hnext⟩ := Option.bind_eq_some_iff.mp hupdate
        rw [← Option.some.inj hnext]
        exact h.exchange (ih (h.of_lookup hlookup) hinner)
    · next items hlookup =>
      have hitems : ∀ inner ∈ items, Distinct inner := h.of_lookup hlookup
      split at hupdate
      · contradiction
      · next last hlast =>
        obtain ⟨inner, hinner, hnext⟩ := Option.bind_eq_some_iff.mp hupdate
        rw [← Option.some.inj hnext]
        have hinner := ih (hitems last (List.mem_of_getLast? hlast)) hinner
        refine h.exchange (List.forall_mem_append.mpr ⟨fun other hother => ?_, ?_⟩)
        · exact hitems other (List.dropLast_subset items hother)
        · exact List.forall_mem_singleton.mpr hinner
    · contradiction

/-- Adding a pair keeps keys distinct. -/
theorem distinct_addPair {origin : Origin} {pair : Pair} (hpair : pair.value.Distinct)
    (h : Distinct entries) (hadd : addPair origin entries pair = some next) : Distinct next := by
  refine distinct_updateAt (fun {origin inner changed} hinner hchange => ?_) h hadd
  split at hchange
  · contradiction
  · split at hchange
    · contradiction
    · next hfree =>
      rw [← Option.some.inj hchange]
      have hkey := lookup_eq_none_iff_notMem.mp (Option.not_isSome_iff_eq_none.mp hfree)
      exact hinner.concat hkey hpair

/-- Adding pairs keeps keys distinct. -/
theorem distinct_addPairs {origin : Origin} {pairs : List Pair}
    (hpairs : ∀ pair ∈ pairs, pair.value.Distinct) (h : Distinct entries)
    (hadd : addPairs origin entries pairs = some next) : Distinct next := by
  induction pairs generalizing entries with
  | nil => exact Option.some.inj hadd ▸ h
  | cons pair pairs ih =>
    rw [List.forall_mem_cons] at hpairs
    obtain ⟨between, hfirst, hlater⟩ := Option.bind_eq_some_iff.mp hadd
    exact ih hpairs.2 (distinct_addPair hpairs.1 h hfirst) hlater

/-- Opening a table by its header keeps keys distinct. -/
theorem distinct_openTable {pairs : List Pair} (hpairs : ∀ pair ∈ pairs, pair.value.Distinct)
    (h : Distinct entries) (hopen : openTable key pairs entries = some next) : Distinct next := by
  unfold openTable at hopen
  split at hopen
  · next hlookup =>
    obtain ⟨inner, hinner, hnext⟩ := Option.bind_eq_some_iff.mp hopen
    rw [← Option.some.inj hnext]
    exact h.concat (lookup_eq_none_iff_notMem.mp hlookup)
      (distinct_addPairs hpairs distinct_nil hinner)
  · next old hlookup =>
    obtain ⟨inner, hinner, hnext⟩ := Option.bind_eq_some_iff.mp hopen
    rw [← Option.some.inj hnext]
    refine h.without.concat ?_ (distinct_addPairs hpairs (h.of_lookup hlookup) hinner)
    simp [Entries.without]
  · contradiction

/-- Adding a table in double brackets keeps keys distinct. -/
theorem distinct_appendTable {pairs : List Pair} (hpairs : ∀ pair ∈ pairs, pair.value.Distinct)
    (h : Distinct entries) (happend : appendTable key pairs entries = some next) :
    Distinct next := by
  obtain ⟨inner, hinner, hnext⟩ := Option.bind_eq_some_iff.mp happend
  have hinner := List.forall_mem_singleton.mpr (distinct_addPairs hpairs distinct_nil hinner)
  split at hnext
  · next hlookup =>
    rw [← Option.some.inj hnext]
    exact h.concat (lookup_eq_none_iff_notMem.mp hlookup) hinner
  · next items hlookup =>
    rw [← Option.some.inj hnext]
    exact h.exchange (List.forall_mem_append.mpr ⟨h.of_lookup hlookup, hinner⟩)
  · contradiction

end Entries

end AccessPattern.Toml
