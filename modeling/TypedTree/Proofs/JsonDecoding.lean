import TypedTree.Json.Decode
import TypedTree.Proofs.JsonReading
import TypedTree.Proofs.TableEntries

/-! Decoders that take what was encoded back. What counts is the value that a document shows, whether it was text or data
in memory. -/

namespace TypedTree.Json

open Document (Shows ShowsItems ShowsEntries)

variable {α β : Type} {decoder : Decoder α} {value : Json} {x : α} {name : String}

/-- A decoder gets this from all documents that show a value. -/
def Decoder.Takes (decoder : Decoder α) (value : Json) (x : α) : Prop :=
  ∀ document : Document, document.Shows value → decoder document = .ok x

namespace Decoder

theorem takes_bool (value : Bool) : Decoder.bool.Takes (.bool value) value := by
  intro document shows
  cases shows
  rfl

theorem takes_string (text : String) : Decoder.string.Takes (.string text) text := by
  intro document shows
  cases shows
  rfl

theorem Takes.option (takes : decoder.Takes value x) (present : value ≠ .null) :
    (Decoder.option decoder).Takes value (some x) := by
  intro document shows
  have read := takes document shows
  cases shows with
  | null => exact absurd rfl present
  | _ => simp [Decoder.option, read]

theorem items_eq_ok {encode : α → Json} {xs : List α} {found : List Document} {ending : ArrayEnd} {position : Nat}
    (takes : ∀ x ∈ xs, decoder.Takes (encode x) x) (sound : ending.breach? = none)
    (shows : ShowsItems found (xs.map encode)) : items decoder ending position found = .ok xs := by
  induction xs generalizing found position with
  | nil =>
    cases shows
    simp [items, sound]
  | cons x xs ih =>
    obtain ⟨first, takes⟩ := List.forall_mem_cons.mp takes
    cases shows with
    | cons here rest =>
      rw [items, first _ here, ih takes rest]
      rfl

theorem takes_list {encode : α → Json} {xs : List α} (takes : ∀ x ∈ xs, decoder.Takes (encode x) x) :
    (Decoder.list decoder).Takes (.array (xs.map encode)) xs := by
  intro document shows
  cases shows with
  | array sound each => exact items_eq_ok takes sound each

theorem entries_eq_ok {encode : α → Json} {pairs : List (String × α)} {found : List (Except Fault String × Document)}
    {written : Table String α} (takes : ∀ pair ∈ pairs, decoder.Takes (encode pair.2) pair.2)
    (shows : ShowsEntries found (pairs.map fun (key, x) => (key, encode x))) :
    entries decoder .closed written found =
      .ok (pairs.foldl (fun table pair => table.insert pair.1 pair.2) written) := by
  induction pairs generalizing found written with
  | nil =>
    cases shows
    rfl
  | cons pair pairs ih =>
    obtain ⟨first, takes⟩ := List.forall_mem_cons.mp takes
    cases shows with
    | cons here rest =>
      rw [entries, first _ here, List.foldl_cons, ← ih takes rest]
      rfl

/-- The keys of a table are all different, and its order is kept. -/
theorem takes_table {encode : α → Json} {table : Table String α}
    (takes : ∀ entry ∈ table.entries, decoder.Takes (encode entry.2) entry.2) :
    (Decoder.table decoder).Takes (.object (table.entries.map fun (key, x) => (key, encode x))) table := by
  intro document shows
  cases shows with
  | object each =>
    have same : Table.ofList table.entries = table := Table.ext_entries (Table.entries_ofList table.distinct)
    exact (entries_eq_ok takes each).trans (congrArg Except.ok same)

end Decoder

/-- The entries that have a value; the others are left out. -/
def presentEntries (entries : List (String × Option Json)) : List (String × Json) :=
  entries.filterMap fun entry => entry.2.map (entry.1, ·)

theorem sublist_presentEntries (entries : List (String × Option Json)) :
    ((presentEntries entries).map Prod.fst).Sublist (entries.map Prod.fst) := by
  induction entries with
  | nil => exact .refl _
  | cons entry entries ih =>
    obtain ⟨key, value⟩ := entry
    cases value with
    | none => exact ih.cons key
    | some value => exact ih.cons_cons key

theorem find_presentEntries {entries : List (String × Option Json)} (distinct : (entries.map Prod.fst).Nodup) (key : String) :
    Table.find key (presentEntries entries) = (Table.find key entries).join := by
  induction entries with
  | nil => rfl
  | cons entry entries ih =>
    obtain ⟨other, value⟩ := entry
    obtain ⟨absent, distinct⟩ := List.nodup_cons.mp distinct
    specialize ih distinct
    rw [Table.find]
    cases value with
    | some value =>
      change Table.find key ((other, value) :: presentEntries entries) = _
      rw [Table.find, ih]
      split <;> rfl
    | none =>
      change Table.find key (presentEntries entries) = _
      split
      next same =>
        subst same
        exact Table.find_eq_none fun listed => absent ((sublist_presentEntries entries).subset listed)
      next => exact ih

theorem legible_presentEntries {entries : List (String × Option Json)}
    (each : ∀ entry ∈ entries, ∀ value ∈ entry.2, Legible value) : Legible (.object (presentEntries entries)) := by
  refine legible_object fun entry member => ?_
  obtain ⟨⟨key, value⟩, listed, present⟩ := List.mem_filterMap.mp member
  obtain ⟨value, there, rfl⟩ := Option.map_eq_some_iff.mp present
  exact each _ listed value there

/-- The cells of a filling hold what stands under the keys of an object. -/
structure Filling.Offers (filling : Filling) (entries : List (String × Json)) : Prop where
  present : ∀ {field value}, Table.find field entries = some value →
    ∃ cell, filling.cell? field = some cell ∧ cell.document.Shows value
  absent : ∀ {field}, Table.find field entries = none → filling.cell? field = none

namespace Record

variable {record : Record α} {entries : List (String × Json)} {found : List (Except Fault String × Document)}

theorem exists_entryCell {field : String} {place : Nat} (shows : ShowsEntries found entries)
    (listed : Table.find field entries = some value) :
    ∃ cell, entryCell? field place found = some cell ∧ cell.document.Shows value := by
  induction entries generalizing found place with
  | nil => cases listed
  | cons entry entries ih =>
    cases shows with
    | @cons key document other found _ here rest =>
      rw [Table.find] at listed
      simp only [entryCell?]
      split at listed
      next same =>
        cases listed
        exact ⟨_, if_pos same, here⟩
      next different =>
        rw [if_neg different]
        exact ih rest listed

theorem entryCell?_eq_none {field : String} {place : Nat} (shows : ShowsEntries found entries)
    (absent : Table.find field entries = none) : entryCell? field place found = none := by
  induction entries generalizing found place with
  | nil =>
    cases shows
    rfl
  | cons entry entries ih =>
    cases shows with
    | cons _ rest =>
      rw [Table.find] at absent
      split at absent
      next => cases absent
      next different =>
        simp only [entryCell?, if_neg different]
        exact ih rest absent

theorem offers_of_shows (shows : ShowsEntries found entries) (absent : String → Placed) :
    Filling.Offers ⟨fun field => entryCell? field 0 found, absent⟩ entries :=
  ⟨exists_entryCell shows, entryCell?_eq_none shows⟩

/-- A record gets this from all objects with these entries. -/
def Reads (record : Record α) (entries : List (String × Json)) (x : α) : Prop :=
  ∀ filling : Filling, filling.Offers entries → record.read filling = .ok x

theorem Reads.seq {first : Record (α → β)} {f : α → β} (function : first.Reads entries f) (argument : record.Reads entries x) :
    (first <*> record).Reads entries (f x) := by
  intro filling offers
  change combine (first.read filling) (record.read filling) = _
  rw [function filling offers, argument filling offers]
  rfl

theorem Reads.map (f : α → β) (argument : record.Reads entries x) : (f <$> record).Reads entries (f x) := by
  intro filling offers
  change combine (.ok f) (record.read filling) = _
  rw [argument filling offers]
  rfl

theorem reads_required (found : Table.find name entries = some value) (takes : decoder.Takes value x) :
    (required name decoder).Reads entries x := by
  intro filling offers
  obtain ⟨cell, there, shows⟩ := offers.present found
  simp only [required, there, readCell, takes _ shows]
  rfl

theorem reads_withDefault (default : α) (found : Table.find name entries = some value) (takes : decoder.Takes value x) :
    (withDefault name default decoder).Reads entries x := by
  intro filling offers
  obtain ⟨cell, there, shows⟩ := offers.present found
  simp only [withDefault, there, readCell, takes _ shows]
  rfl

/-- What is left out is none. -/
theorem reads_optional {encode : α → Json} {x : Option α} (found : Table.find name entries = x.map encode)
    (takes : ∀ y, x = some y → decoder.Takes (encode y) y ∧ encode y ≠ .null) :
    (optional name decoder).Reads entries x := by
  cases x with
  | none =>
    intro filling offers
    simp only [optional, withDefault, offers.absent found]
  | some y =>
    obtain ⟨takes, present⟩ := takes y rfl
    exact reads_withDefault none found (takes.option present)

theorem entryMisfit?_eq_none {fields seen : List String} {strict : Bool} {place : Nat} (shows : ShowsEntries found entries)
    (known : ∀ key ∈ entries.map Prod.fst, key ∈ fields) (distinct : (seen ++ entries.map Prod.fst).Nodup) :
    entryMisfit? fields strict .closed place seen found = none := by
  induction entries generalizing found seen place with
  | nil =>
    cases shows
    rfl
  | cons entry entries ih =>
    cases shows with
    | @cons key document value found _ _ rest =>
      obtain ⟨listed, known⟩ := List.forall_mem_cons.mp known
      rw [List.map_cons, List.nodup_middle, List.nodup_cons] at distinct
      have new : key ∉ seen := fun old => distinct.1 (List.mem_append_left _ old)
      simp only [entryMisfit?, keyMisfit?, if_pos listed, if_neg new]
      exact ih rest known (List.nodup_cons.mpr distinct)

/-- Objects are taken whose keys are fields of the record, in the order of the fields. -/
theorem takes_decode {strict : Bool} (reads : record.Reads entries x) (keys : (entries.map Prod.fst).Sublist record.fields)
    (distinct : record.fields.Nodup) : (record.decode name strict).Takes (.object entries) x := by
  intro document shows
  cases shows with
  | object each =>
    have sound : entryMisfit? record.fields strict .closed 0 [] _ = none :=
      entryMisfit?_eq_none each keys.subset (distinct.sublist keys)
    rw [decode, sound, settle, reads _ (offers_of_shows each _)]
    rfl

end Record

end TypedTree.Json
