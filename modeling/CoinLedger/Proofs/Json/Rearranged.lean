import CoinLedger.Json.Decode
import Mathlib.Data.List.Nodup
import Mathlib.Data.List.Perm.Basic

/-!
# Reading rearranged values

A record is written as an object whose keys are distinct, so it makes no difference in which order
its members are handed on.  A form of values that at most rearranges members (`Rearranges`) is the
value as it was written, and also its canonical form (`rearranges_canonical`).  A record that is
read from such a form has under each of its names what was written there (`Rearranges.record`), and
a field, a list and an optional value are read as what was written when their parts are
(`Holds.field_eq`, `Rearranges.readList`, `readOptional_some`).
-/

set_option autoImplicit false

namespace CoinLedger.Json

/-! ## Members by their keys -/

section Lookup

variable {β : Type}

theorem lookup_eq_some_iff_mem {entries : List (String × β)} (distinct : (entries.map (·.1)).Nodup)
    {key : String} {value : β} : entries.lookup key = some value ↔ (key, value) ∈ entries := by
  induction entries with
  | nil => simp
  | cons entry rest ih =>
      obtain ⟨name, held⟩ := entry
      obtain ⟨fresh, distinct⟩ : name ∉ rest.map (·.1) ∧ (rest.map (·.1)).Nodup :=
        List.nodup_cons.mp distinct
      by_cases same : key = name
      · subst same
        have outside : (key, value) ∉ rest := fun member => fresh (List.mem_map_of_mem member)
        simp [outside, eq_comm]
      · have other : (key == name) = false := beq_eq_false_iff_ne.mpr same
        rw [List.lookup_cons, other, ih distinct]
        simp [same]

/-- What a key holds does not depend on the order of the members. -/
theorem lookup_perm {left right : List (String × β)} (permuted : left.Perm right)
    (distinct : (right.map (·.1)).Nodup) (key : String) : left.lookup key = right.lookup key := by
  have distinctLeft : (left.map (·.1)).Nodup := (permuted.map _).nodup_iff.mpr distinct
  refine Option.ext fun value => ?_
  rw [lookup_eq_some_iff_mem distinctLeft, lookup_eq_some_iff_mem distinct, permuted.mem_iff]

theorem lookup_map {γ : Type} (change : β → γ) (entries : List (String × β)) (key : String) :
    (entries.map fun entry => (entry.1, change entry.2)).lookup key =
      (entries.lookup key).map change := by
  induction entries with
  | nil => rfl
  | cons entry rest ih =>
      rw [List.map_cons, List.lookup_cons, List.lookup_cons, ih]
      split <;> rfl

/-- Leaving out members of other keys changes nothing about a key. -/
theorem lookup_filter {entries : List (String × β)} (distinct : (entries.map (·.1)).Nodup)
    (keeps : String → Bool) {key : String} (kept : keeps key = true) :
    (entries.filter fun entry => keeps entry.1).lookup key = entries.lookup key := by
  have distinctKept : ((entries.filter fun entry => keeps entry.1).map (·.1)).Nodup :=
    List.Nodup.sublist (List.filter_sublist.map _) distinct
  refine Option.ext fun value => ?_
  rw [lookup_eq_some_iff_mem distinctKept, lookup_eq_some_iff_mem distinct, List.mem_filter]
  exact and_iff_left kept

end Lookup

/-! ## Forms of a value -/

/-- A form of values that at most rearranges the members of objects without repeated keys. -/
structure Rearranges (form : Json → Json) : Prop where
  null : form .null = .null
  bool : ∀ value, form (.bool value) = .bool value
  integer : ∀ value, form (.integer value) = .integer value
  string : ∀ text, form (.string text) = .string text
  array : ∀ items, form (.array items) = .array (items.map form)
  object : ∀ members : List (String × Json), (members.map (·.1)).Nodup → ∃ arranged,
    form (.object members) = .object arranged ∧
      arranged.Perm (members.map fun entry => (entry.1, form entry.2))

theorem rearranges_id : Rearranges id where
  null := rfl
  bool _ := rfl
  integer _ := rfl
  string _ := rfl
  array items := by rw [List.map_id, id_eq]
  object members _ := ⟨members, rfl, .of_eq (List.map_id members).symm⟩

/-- A member with a new key is put among the sorted ones. -/
theorem insertMember_perm {key : String} {value : Json} {sorted : List (String × Json)}
    (fresh : key ∉ sorted.map (·.1)) :
    (insertMember key value sorted).Perm ((key, value) :: sorted) := by
  induction sorted with
  | nil => exact .refl _
  | cons entry rest ih =>
      obtain ⟨other, held⟩ := entry
      rw [List.map_cons, List.mem_cons, not_or] at fresh
      rw [insertMember]
      split
      · exact .refl _
      · rw [if_neg (by simpa using fresh.1)]
        exact ((ih fresh.2).cons _).trans (.swap _ _ _)

theorem sortMembers_perm {members : List (String × Json)}
    (distinct : (members.map (·.1)).Nodup) : (sortMembers members).Perm members := by
  have insertEach : ∀ sorted : List (String × Json), ((sorted ++ members).map (·.1)).Nodup →
      (members.foldl (fun sorted entry => insertMember entry.1 entry.2 sorted) sorted).Perm
        (sorted ++ members) := by
    clear distinct
    induction members with
    | nil => exact fun sorted _ => .of_eq (List.append_nil sorted).symm
    | cons entry rest ih =>
        intro sorted distinct
        have turned : (sorted ++ entry :: rest).Perm ((entry :: sorted) ++ rest) :=
          List.perm_middle
        have apart := (turned.map (·.1)).nodup_iff.mp distinct
        have fresh : entry.1 ∉ sorted.map (·.1) := fun member =>
          (List.nodup_cons.mp apart).1 (List.map_subset _ (List.subset_append_left _ _) member)
        have inserted : (insertMember entry.1 entry.2 sorted).Perm (entry :: sorted) :=
          insertMember_perm fresh
        have joined := inserted.append_right rest
        exact (ih _ ((joined.map (·.1)).nodup_iff.mpr apart)).trans (joined.trans turned.symm)
  exact insertEach [] distinct

theorem canonicalItems_eq_map (items : List Json) : canonicalItems items = items.map canonical := by
  induction items with
  | nil => rfl
  | cons item rest ih => rw [canonicalItems, ih, List.map_cons]

theorem canonicalMembers_eq_map (members : List (String × Json)) :
    canonicalMembers members = members.map fun entry => (entry.1, canonical entry.2) := by
  induction members with
  | nil => rfl
  | cons entry rest ih => rw [canonicalMembers, ih, List.map_cons]

/-- **The canonical form only rearranges members**, where no key is repeated. -/
theorem rearranges_canonical : Rearranges canonical where
  null := by rw [canonical]
  bool _ := by rw [canonical]
  integer _ := by rw [canonical]
  string _ := by rw [canonical]
  array items := by rw [canonical, canonicalItems_eq_map]
  object members distinct := by
    refine ⟨_, by rw [canonical, canonicalMembers_eq_map], sortMembers_perm ?_⟩
    rwa [List.map_map]

/-! ## Records -/

/-- The record has under each of the names the form of what the fields have there. -/
structure Record.Holds (source : Record) (form : Json → Json) (names : List String)
    (fields : List (String × Json)) : Prop where
  complete : source.surplus = false
  lookup : ∀ name ∈ names, source.members.lookup name = (fields.lookup name).map form

/-- **A record is read from every form of an object with its fields**; other members are passed
over. -/
theorem Rearranges.record {form : Json → Json} (rearranges : Rearranges form) (names : List String)
    {fields : List (String × Json)} (distinct : (fields.map (·.1)).Nodup) :
    ∃ source, Json.record names (form (.object fields)) = .ok source ∧
      source.Holds form names fields := by
  obtain ⟨arranged, written, permuted⟩ := rearranges.object fields distinct
  have distinctForms :
      ((fields.map fun entry => (entry.1, form entry.2)).map (·.1)).Nodup := by
    rwa [List.map_map]
  have distinctArranged : (arranged.map (·.1)).Nodup :=
    (permuted.map _).nodup_iff.mpr distinctForms
  have distinctKnown :
      ((arranged.filter fun entry => names.contains entry.1).map (·.1)).Nodup :=
    List.Nodup.sublist (List.filter_sublist.map _) distinctArranged
  refine ⟨⟨arranged.filter fun entry => names.contains entry.1, false⟩, ?_, rfl, ?_⟩
  · rw [written, Json.record]
    exact if_pos distinctKnown
  · intro name known
    calc (arranged.filter fun entry => names.contains entry.1).lookup name
        = arranged.lookup name :=
          lookup_filter distinctArranged names.contains (List.contains_iff_mem.mpr known)
      _ = (fields.map fun entry => (entry.1, form entry.2)).lookup name :=
          lookup_perm permuted distinctForms name
      _ = (fields.lookup name).map form := lookup_map form fields name

/-- What is read from every record with the fields is read from every form of their object. -/
theorem Rearranges.read_record {form : Json → Json} (rearranges : Rearranges form)
    {names : List String} {fields : List (String × Json)} (distinct : (fields.map (·.1)).Nodup)
    {α : Type} {next : Record → Decoded α} {result : α}
    (reads : ∀ source : Record, source.Holds form names fields → next source = .ok result) :
    (Json.record names (form (.object fields)) >>= next) = .ok result := by
  obtain ⟨source, read, holds⟩ := rearranges.record names distinct
  rw [read]
  exact reads source holds

section Holds

variable {source : Record} {form : Json → Json} {names : List String}
  {fields : List (String × Json)}

/-- A field is read as what was written under its name. -/
theorem Record.Holds.field_eq {α : Type} (holds : source.Holds form names fields) (name : String)
    {value : Json} {read : Json → Decoded α} {result : α} (known : name ∈ names)
    (written : fields.lookup name = some value) (reads : read (form value) = .ok result) :
    source.field name read = some (.ok result) := by
  rw [Record.field, holds.lookup name known, written]
  exact congrArg some reads

theorem Record.Holds.field_eq_none {α : Type} (holds : source.Holds form names fields)
    (name : String) {read : Json → Decoded α} (known : name ∈ names)
    (absent : fields.lookup name = none) : source.field name read = none := by
  rw [Record.field, holds.lookup name known, absent]
  rfl

/-- Where no field is at fault, a record is read as what comes after settling it. -/
theorem Record.Holds.settled {α : Type} (holds : source.Holds form names fields)
    {faults : List (String × Option DecodeError)} {next : Unit → Decoded α} {result : Decoded α}
    (none : ∀ entry ∈ faults, entry.2 = none) (reads : next () = result) :
    (source.settle faults >>= next) = result := by
  have faultless : ∀ name, (faults.lookup name).join = .none := by
    intro name
    cases found : faults.lookup name with
    | none => rfl
    | some fault =>
        obtain ⟨before, after, split, _⟩ := List.lookup_eq_some_iff.mp found
        exact none (name, fault) (split ▸ List.mem_append_right _ List.mem_cons_self)
  have settled : source.settle faults = .ok () := by
    rw [settle, List.findSome?_eq_none_iff.mpr fun entry _ => faultless entry.1]
    exact if_neg (by simp [holds.complete])
  rw [settled]
  exact reads

end Holds

/-! ## Lists, optional values and numbers -/

theorem readEach_map {α : Type} {read : Json → Decoded α} {write : α → Json} {items : List α}
    (reads : ∀ item ∈ items, read (write item) = .ok item) :
    readEach read (items.map write) = .ok items := by
  induction items with
  | nil => rfl
  | cons item rest ih =>
      have first := reads item List.mem_cons_self
      have others := ih fun other member => reads other (List.mem_cons_of_mem _ member)
      rw [List.map_cons, readEach, first, others]
      rfl

/-- A list is read back when its items are. -/
theorem Rearranges.readList {form : Json → Json} (rearranges : Rearranges form) {α : Type}
    {read : Json → Decoded α} {write : α → Json}
    (reads : ∀ item, read (form (write item)) = .ok item)
    (items : List α) : Json.readList read (form (.array (items.map write))) = .ok items := by
  rw [rearranges.array, List.map_map, Json.readList]
  exact readEach_map fun item _ => reads item

theorem readOptional_some {α : Type} {read : Json → Decoded α} {value : Json} {result : α}
    (present : value ≠ .null) (reads : read value = .ok result) :
    readOptional read value = .ok (some result) := by
  cases value with
  | null => exact absurd rfl present
  | bool _ | integer _ | fraction _ | string _ | array _ | object _ =>
      rw [readOptional, reads]
      · rfl
      · exact nofun

theorem readInteger_eq_ok {least greatest value : Int} (low : least ≤ value)
    (high : value ≤ greatest) : readInteger least greatest (.integer value) = .ok value :=
  if_pos ⟨low, high⟩

namespace Rearranges

variable {form : Json → Json} (rearranges : Rearranges form)

include rearranges

theorem readUInt8 (value : UInt8) :
    Json.readUInt8 (form (.natural value.toNat)) = .ok value := by
  have bound := value.toNat_lt
  rw [natural, rearranges.integer, Json.readUInt8, readInteger_eq_ok (by omega) (by omega)]
  simp [Except.map]

theorem readUInt32 (value : UInt32) :
    Json.readUInt32 (form (.natural value.toNat)) = .ok value := by
  have bound := value.toNat_lt
  rw [natural, rearranges.integer, Json.readUInt32, readInteger_eq_ok (by omega) (by omega)]
  simp [Except.map]

theorem readInt32 (value : Int32) : Json.readInt32 (form (.integer value.toInt)) = .ok value := by
  rw [rearranges.integer, Json.readInt32,
    readInteger_eq_ok value.minValue_le_toInt value.toInt_le]
  simp [Except.map]

theorem readInt64 (value : Int64) : Json.readInt64 (form (.integer value.toInt)) = .ok value := by
  rw [rearranges.integer, Json.readInt64,
    readInteger_eq_ok value.minValue_le_toInt value.toInt_le]
  simp [Except.map]

theorem readBool (value : Bool) : Json.readBool (form (.bool value)) = .ok value := by
  rw [rearranges.bool]
  rfl

theorem readString (text : String) : Json.readString (form (.string text)) = .ok text := by
  rw [rearranges.string]
  rfl

/-- An object is read where a value may be null as well. -/
theorem readOptional_object {α : Type} {read : Json → Decoded α}
    {members : List (String × Json)} (distinct : (members.map (·.1)).Nodup) {result : α}
    (reads : read (form (.object members)) = .ok result) :
    readOptional read (form (.object members)) = .ok (some result) := by
  obtain ⟨arranged, written, _⟩ := rearranges.object members distinct
  rw [written] at reads ⊢
  exact readOptional_some nofun reads

end Rearranges

end CoinLedger.Json
