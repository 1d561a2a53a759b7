import ConstraintGraph.Proofs.Reading.Graphs
import ConstraintGraph.Proofs.Reading.Spellings
import Mathlib.Data.String.Basic

namespace ConstraintGraph.VariableTable

open Json (Key asStringMap asStringSet)

def KeyDenotes (key : String) (n : Nat) : Prop :=
  ∃ t, Text.Trims key t ∧ Text.SpellsNatural t.toList n

def IsIndexKey (key : String) : Prop := ∃ n ≤ 4294967295, KeyDenotes key n

/-- The outline is an object with these keys in this order, however they are spelled, and with a
list of types under each of them. -/
def ListsTypes (o : Json.Outline) (members : List (String × List String)) : Prop :=
  ∃ ms, o = .object ms ∧ List.Forall₂ (fun (m : Key × Json.Outline) (e : String × List String) =>
    m.1.text? = some e.1 ∧ m.2 = .array (e.2.map .string)) ms members

abbrev TextTable := Std.ExtTreeMap String (Std.ExtTreeSet String)

def byText (members : List (String × List String)) : TextTable :=
  Std.ExtTreeMap.ofList (members.map fun m => (m.1, Std.ExtTreeSet.ofList m.2)) compare

def indexed? (e : String × Std.ExtTreeSet String) : Option (UInt32 × Std.ExtTreeSet String) :=
  (index? e.1).map (·, e.2)

/-- The types by the indices that the texts denote. A text that denotes none is passed over. -/
def byIndex (entries : TextTable) : VariableTable :=
  Std.ExtTreeMap.ofList (entries.toList.filterMap indexed?) compare

section Keys

variable {key : String} {i : UInt32}

theorem index?_eq_some_iff : index? key = some i ↔ KeyDenotes key i.toNat := by
  rw [index?, Text.uint32?_eq_some_iff]
  constructor
  · exact fun h => ⟨_, Text.trims_trim key, h⟩
  · rintro ⟨t, ht, h⟩
    rwa [Text.trim_eq_iff.2 ht]

theorem index?_eq_none_iff : index? key = none ↔ ¬ IsIndexKey key := by
  rw [Option.eq_none_iff_forall_ne_some]
  constructor
  · rintro hnone ⟨n, hn, hkey⟩
    have hi : (UInt32.ofNat n).toNat = n := UInt32.toNat_ofNat_of_lt' (Nat.lt_succ_of_le hn)
    exact hnone (UInt32.ofNat n) (index?_eq_some_iff.2 (hi.symm ▸ hkey))
  · intro hnot i hi
    exact hnot ⟨i.toNat, Nat.le_of_lt_succ i.toNat_lt, index?_eq_some_iff.1 hi⟩

end Keys

section Members

variable {members : List (String × List String)} {o : Json.Outline} {key : String}
  {types : Std.ExtTreeSet String}

theorem listsTypes_ofJson (members : List (String × List String)) :
    ListsTypes (.ofJson (.object (members.map fun m => (m.1, Json.ofStrings m.2)))) members := by
  refine ⟨_, by rw [Json.Outline.ofJson], ?_⟩
  rw [Json.Outline.ofMembers_eq_map, List.map_map, List.forall₂_map_left_iff, List.forall₂_same]
  intro m _
  refine ⟨rfl, ?_⟩
  show Json.Outline.ofJson (Json.ofStrings m.2) = _
  rw [Json.ofStrings, Json.Outline.ofJson, Json.Outline.ofItems_eq_map, List.map_map]
  refine congrArg Json.Outline.array (List.map_congr_left fun text _ => ?_)
  rw [Function.comp, Json.Outline.ofJson]

/-- Before the keys are looked at as indices, an object is a map by text. -/
theorem asStringMap_eq (h : ListsTypes o members) (origin : Json.Origin) :
    asStringMap asStringSet origin o = .ok (byText members) := by
  obtain ⟨ms, rfl, hms⟩ := h
  have hlist : ∀ listed : List String,
      Json.asList Json.asString origin (.array (listed.map .string)) = .ok listed := by
    intro listed
    refine Json.mapM_ok ?_
    rw [List.forall₂_map_left_iff, List.forall₂_same]
    exact fun _ _ => rfl
  have hentries : Json.asEntries Key.asText asStringSet origin (.object ms) =
      .ok (members.map fun m => (m.1, Std.ExtTreeSet.ofList m.2)) := by
    refine Json.mapM_ok (List.forall₂_map_right_iff.2 (hms.imp ?_))
    rintro ⟨key, _⟩ ⟨text, listed⟩ ⟨hkey, rfl⟩
    have hkey' : key.asText = .ok text := by
      rw [Key.asText, hkey]
    show (do return (← key.asText, ← asStringSet origin (.array (listed.map .string)))) = _
    rw [hkey', asStringSet, hlist]
    rfl
  rw [asStringMap, hentries]
  rfl

theorem getElem?_byText (members : List (String × List String)) (key : String) :
    (byText members)[key]? =
      (members.findRev? (·.1 == key)).map fun m => Std.ExtTreeSet.ofList m.2 := by
  rw [byText, Json.getElem?_ofList_eq, List.findRev?_eq_find?_reverse,
    List.findRev?_eq_find?_reverse, ← List.map_reverse, List.find?_map, Option.map_map]
  rfl

theorem mem_toList_byText :
    (key, types) ∈ (byText members).toList ↔
      ∃ listed, members.findRev? (·.1 == key) = some (key, listed) ∧ types = .ofList listed := by
  rw [Std.ExtTreeMap.mem_toList_iff_getElem?_eq_some, getElem?_byText, Option.map_eq_some_iff]
  constructor
  · rintro ⟨⟨key', listed⟩, hfound, rfl⟩
    -- The search looks for a member under the key, but its result does not say so.
    have hkey : (key' == key) = true := by
      rw [List.findRev?_eq_find?_reverse] at hfound
      exact List.find?_some (p := fun m : String × List String => m.1 == key) hfound
    obtain rfl := eq_of_beq hkey
    exact ⟨listed, hfound, rfl⟩
  · rintro ⟨listed, hfound, rfl⟩
    exact ⟨_, hfound, rfl⟩

theorem exists_mem_toList_byText_iff :
    (∃ types, (key, types) ∈ (byText members).toList) ↔ ∃ listed, (key, listed) ∈ members := by
  constructor
  · rintro ⟨types, hmem⟩
    obtain ⟨listed, hfound, -⟩ := mem_toList_byText.1 hmem
    rw [List.findRev?_eq_find?_reverse] at hfound
    exact ⟨listed, List.mem_reverse.1 (List.mem_of_find?_eq_some hfound)⟩
  · rintro ⟨listed, hmem⟩
    have hkey : key ∈ byText members := by
      rw [byText, Std.ExtTreeMap.mem_ofList, List.map_map, List.contains_iff_mem]
      exact List.mem_map.2 ⟨(key, listed), hmem, rfl⟩
    obtain ⟨types, htypes⟩ :=
      Option.isSome_iff_exists.1 (Std.ExtTreeMap.mem_iff_isSome_getElem?.1 hkey)
    exact ⟨types, Std.ExtTreeMap.mem_toList_iff_getElem?_eq_some.2 htypes⟩

theorem forall_mem_toList_byText {p : String → Prop} :
    (∀ e ∈ (byText members).toList, p e.1) ↔ ∀ m ∈ members, p m.1 := by
  constructor
  · intro h m hm
    obtain ⟨types, hmem⟩ := exists_mem_toList_byText_iff.2 ⟨m.2, hm⟩
    exact h (m.1, types) hmem
  · intro h e he
    obtain ⟨listed, hmem⟩ := exists_mem_toList_byText_iff.1 ⟨e.2, he⟩
    exact h (e.1, listed) hmem

section Entries

variable {e : String × Std.ExtTreeSet String} {i : UInt32}

theorem indexed?_eq_some_iff :
    indexed? e = some (i, types) ↔ index? e.1 = some i ∧ e.2 = types := by
  rw [indexed?, Option.map_eq_some_iff]
  constructor
  · rintro ⟨j, hj, heq⟩
    obtain ⟨rfl, rfl⟩ := Prod.mk.inj heq
    exact ⟨hj, rfl⟩
  · rintro ⟨hi, rfl⟩
    exact ⟨i, hi, rfl⟩

theorem isNone_indexed?_iff : (indexed? e).isNone = true ↔ ¬ IsIndexKey e.1 := by
  rw [indexed?, Option.isNone_map, Option.isNone_iff_eq_none, index?_eq_none_iff]

theorem any_indexed?_iff : (indexed? e).any (·.1 == i) = true ↔ index? e.1 = some i := by
  rw [indexed?, Option.any_map, Option.any_eq_true]
  constructor
  · rintro ⟨j, hj, heq⟩
    exact hj.trans (congrArg some (eq_of_beq heq))
  · exact fun hi => ⟨i, hi, beq_self_eq_true i⟩

/-- The entries are read up to the first key that denotes no index. -/
theorem mapM_eq_find?
    {f : String × Std.ExtTreeSet String → Except DecodeError (UInt32 × Std.ExtTreeSet String)}
    (hsome : ∀ e e', indexed? e = some e' → f e = .ok e')
    (hnone : ∀ e, indexed? e = none → f e = .error (.variableIndex e.1))
    (entries : List (String × Std.ExtTreeSet String)) :
    entries.mapM f =
      match entries.find? (fun e => (indexed? e).isNone) with
      | some e => .error (.variableIndex e.1)
      | none => .ok (entries.filterMap indexed?) := by
  induction entries with
  | nil => rfl
  | cons e entries ih =>
    rw [List.mapM_cons, ih, List.find?_cons, List.filterMap_cons]
    cases hindexed : indexed? e with
    | none =>
      -- The rest is not looked at any more.
      rw [hnone e hindexed]
      rfl
    | some e' =>
      rw [hsome e e' hindexed]
      cases entries.find? fun e => (indexed? e).isNone with
      | none => rfl
      | some e => rfl

end Entries

/-- Keys are looked at in the order of their texts, and the first one without an index is named. -/
theorem ofJson_eq (h : ListsTypes o members) (origin : Json.Origin) :
    ofJson origin o =
      match (byText members).toList.find? (fun e => (indexed? e).isNone) with
      | some e => .error (.variableIndex e.1)
      | none => .ok (byIndex (byText members)) := by
  unfold ofJson
  rw [asStringMap_eq h]
  show Except.bind (List.mapM _ (byText members).toList) _ = _
  rw [mapM_eq_find?]
  · cases (byText members).toList.find? fun e => (indexed? e).isNone with
    | none => rfl
    | some e => rfl
  · rintro ⟨key, types⟩ ⟨i, _⟩ hindexed
    obtain ⟨hkey, rfl⟩ := indexed?_eq_some_iff.1 hindexed
    simp only [hkey]
  · rintro ⟨key, types⟩ hindexed
    have hkey : index? key = none := Option.map_eq_none_iff.1 hindexed
    simp only [hkey]

theorem isLE_compare {a b : String} : (compare a b).isLE = true ↔ a ≤ b := by
  rw [Ordering.isLE_iff_ne_gt]
  exact compare_le_iff_le

/-- The least key that denotes no index is at fault. -/
theorem ofJson_eq_error_iff (h : ListsTypes o members) (origin : Json.Origin)
    (fault : DecodeError) :
    ofJson origin o = .error fault ↔ ∃ m ∈ members, ¬ IsIndexKey m.1 ∧
      (∀ m' ∈ members, ¬ IsIndexKey m'.1 → m.1 ≤ m'.1) ∧ fault = .variableIndex m.1 := by
  -- The entries ascend, so the first one at fault has the least key.
  have hfirst : ∀ e, (byText members).toList.find? (fun e => (indexed? e).isNone) = some e ↔
      e ∈ (byText members).toList ∧ ¬ IsIndexKey e.1 ∧
        ∀ m ∈ members, ¬ IsIndexKey m.1 → e.1 ≤ m.1 := by
    intro e
    rw [Json.find?_toList_eq_some_iff, isNone_indexed?_iff,
      ← forall_mem_toList_byText (p := fun key => ¬ IsIndexKey key → e.1 ≤ key)]
    simp only [isNone_indexed?_iff, isLE_compare]
  rw [ofJson_eq h]
  constructor
  · intro herror
    split at herror
    · rename_i e hfound
      obtain ⟨hmem, hkey, hleast⟩ := (hfirst e).1 hfound
      obtain ⟨listed, hlisted⟩ := exists_mem_toList_byText_iff.1 ⟨e.2, hmem⟩
      exact ⟨(e.1, listed), hlisted, hkey, hleast, (Except.error.inj herror).symm⟩
    · cases herror
  · rintro ⟨m, hm, hkey, hleast, rfl⟩
    obtain ⟨types, hmem⟩ := exists_mem_toList_byText_iff.2 ⟨m.2, hm⟩
    rw [(hfirst (m.1, types)).2 ⟨hmem, hkey, hleast⟩]

/-- A table is read exactly if all keys are indices, and then by what they denote. -/
theorem ofJson_eq_ok_iff (h : ListsTypes o members) (origin : Json.Origin)
    (table : VariableTable) :
    ofJson origin o = .ok table ↔
      (∀ m ∈ members, IsIndexKey m.1) ∧ table = byIndex (byText members) := by
  have hnone : (byText members).toList.find? (fun e => (indexed? e).isNone) = none ↔
      ∀ m ∈ members, IsIndexKey m.1 := by
    rw [List.find?_eq_none, ← forall_mem_toList_byText]
    simp only [isNone_indexed?_iff, not_not]
  rw [ofJson_eq h]
  split
  · rename_i e hfound
    refine iff_of_false nofun fun hkeys => ?_
    cases hfound.symm.trans (hnone.2 hkeys.1)
  · rename_i hfound
    rw [Except.ok.injEq, eq_comm]
    exact (and_iff_right (hnone.1 hfound)).symm

/-- Of the keys that denote an index the greatest one has its types in the table. -/
theorem getElem?_byIndex (entries : TextTable) (i : UInt32) :
    (byIndex entries)[i]? = some types ↔
      ∃ key, (key, types) ∈ entries.toList ∧ index? key = some i ∧
        ∀ e ∈ entries.toList, index? e.1 = some i → e.1 ≤ key := by
  -- The entries ascend, so the last one with the index has the greatest key.
  have hlast : ∀ e, entries.toList.reverse.find? (fun e => (indexed? e).any (·.1 == i)) = some e ↔
      e ∈ entries.toList ∧ index? e.1 = some i ∧
        ∀ e' ∈ entries.toList, index? e'.1 = some i → e'.1 ≤ e.1 := by
    intro e
    rw [Json.find?_reverse_toList_eq_some_iff]
    simp only [any_indexed?_iff, isLE_compare]
  rw [byIndex, Json.getElem?_ofList_eq, List.findRev?_eq_find?_reverse, ← List.filterMap_reverse,
    List.find?_filterMap, Option.map_eq_some_iff]
  constructor
  · rintro ⟨⟨j, _⟩, hfound, rfl⟩
    obtain ⟨e, he, hindexed⟩ := Option.bind_eq_some_iff.1 hfound
    obtain ⟨-, rfl⟩ := indexed?_eq_some_iff.1 hindexed
    exact ⟨e.1, (hlast e).1 he⟩
  · rintro ⟨key, hgreatest⟩
    have hfound := (hlast (key, types)).2 hgreatest
    exact ⟨(i, types), Option.bind_eq_some_iff.2
      ⟨(key, types), hfound, indexed?_eq_some_iff.2 ⟨hgreatest.2.1, rfl⟩⟩, rfl⟩

theorem mem_byIndex (entries : TextTable) (i : UInt32) :
    i ∈ byIndex entries ↔ ∃ e ∈ entries.toList, index? e.1 = some i := by
  rw [byIndex, Std.ExtTreeMap.mem_ofList, List.contains_iff_mem, List.mem_map]
  constructor
  · rintro ⟨⟨i, _⟩, hmem, rfl⟩
    obtain ⟨e, he, hindexed⟩ := List.mem_filterMap.1 hmem
    exact ⟨e, he, (indexed?_eq_some_iff.1 hindexed).1⟩
  · rintro ⟨e, he, hi⟩
    exact ⟨(i, e.2), List.mem_filterMap.2 ⟨e, he, indexed?_eq_some_iff.2 ⟨hi, rfl⟩⟩, rfl⟩

end Members

/-- An object with lists of texts is read as a table exactly if all its keys denote indices.
Otherwise the first key that does not, in the order of the texts, is named as it stands. The table
has the indices that some key denotes, each with the types under the greatest key that denotes it;
under a repeated key these are the last ones. It is read back from what it is written as. -/
theorem read_by_denoted_index :
    (∀ members, ListsTypes
      (.ofJson (.object (members.map fun m => (m.1, Json.ofStrings m.2)))) members) ∧
    (∀ key, (DecodeError.variableIndex key).message? = some s!"invalid variable index '{key}'") ∧
    ∀ (o : Json.Outline) (members : List (String × List String)), ListsTypes o members →
      ∀ origin : Json.Origin,
        ((∃ table, ofJson origin o = .ok table) ↔
          ∀ m ∈ members, ∃ n ≤ 4294967295, KeyDenotes m.1 n) ∧
        (∀ fault, ofJson origin o = .error fault ↔ ∃ m ∈ members,
          (¬ ∃ n ≤ 4294967295, KeyDenotes m.1 n) ∧
          (∀ m' ∈ members, (¬ ∃ n ≤ 4294967295, KeyDenotes m'.1 n) → m.1 ≤ m'.1) ∧
          fault = .variableIndex m.1) ∧
        ∀ table, ofJson origin o = .ok table →
          (∀ i : UInt32, i ∈ table ↔ ∃ m ∈ members, KeyDenotes m.1 i.toNat) ∧
          (∀ (i : UInt32) (types : Std.ExtTreeSet String), table[i]? = some types ↔
            ∃ key listed, members.findRev? (·.1 == key) = some (key, listed) ∧
              KeyDenotes key i.toNat ∧ (∀ m ∈ members, KeyDenotes m.1 i.toNat → m.1 ≤ key) ∧
              types = .ofList listed) ∧
          ofJson.Reads table.toJson table := by
  refine ⟨listsTypes_ofJson, fun key => rfl, fun o members h origin => ⟨⟨?_, ?_⟩,
    ofJson_eq_error_iff h origin, fun table hread => ?_⟩⟩
  · rintro ⟨table, hread⟩
    exact ((ofJson_eq_ok_iff h origin table).1 hread).1
  · exact fun hkeys => ⟨_, (ofJson_eq_ok_iff h origin _).2 ⟨hkeys, rfl⟩⟩
  -- From here on the table is the one by index of the last entries under each key.
  obtain ⟨-, rfl⟩ := (ofJson_eq_ok_iff h origin table).1 hread
  refine ⟨fun i => ?_, fun i types => ?_, reads_toJson _⟩
  · rw [mem_byIndex]
    constructor
    · rintro ⟨e, he, hi⟩
      obtain ⟨listed, hmem⟩ := exists_mem_toList_byText_iff.1 ⟨e.2, he⟩
      exact ⟨(e.1, listed), hmem, index?_eq_some_iff.1 hi⟩
    · rintro ⟨m, hm, hi⟩
      obtain ⟨types, hmem⟩ := exists_mem_toList_byText_iff.2 ⟨m.2, hm⟩
      exact ⟨(m.1, types), hmem, index?_eq_some_iff.2 hi⟩
  · rw [getElem?_byIndex]
    have hgreatest : ∀ key, (∀ e ∈ (byText members).toList, index? e.1 = some i → e.1 ≤ key) ↔
        ∀ m ∈ members, KeyDenotes m.1 i.toNat → m.1 ≤ key := by
      intro key
      rw [forall_mem_toList_byText (p := fun key' => index? key' = some i → key' ≤ key)]
      simp only [index?_eq_some_iff]
    constructor
    · rintro ⟨key, hmem, hi, hle⟩
      obtain ⟨listed, hfound, htypes⟩ := mem_toList_byText.1 hmem
      exact ⟨key, listed, hfound, index?_eq_some_iff.1 hi, (hgreatest key).1 hle, htypes⟩
    · rintro ⟨key, listed, hfound, hi, hle, htypes⟩
      exact ⟨key, mem_toList_byText.2 ⟨listed, hfound, htypes⟩, index?_eq_some_iff.2 hi,
        (hgreatest key).2 hle⟩

/-- Three keys that denote one index, one of them spelled with an escape. -/
theorem read_by_denoted_index_collision :
    let o := Json.Outline.object [(.ofText " 1", .array [.string "a"]),
      (⟨some "\\u00301", some "01"⟩, .array [.string "b"]), (.ofText "+1", .array [.string "c"])]
    let members := [(" 1", ["a"]), ("01", ["b"]), ("+1", ["c"])]
    ListsTypes o members ∧ ∃ table, ofJson .text o = .ok table ∧
      table[(1 : UInt32)]? = some (Std.ExtTreeSet.ofList ["b"]) := by
  intro o members
  have hlists : ListsTypes o members :=
    ⟨_, rfl, .cons ⟨rfl, rfl⟩ (.cons ⟨rfl, rfl⟩ (.cons ⟨rfl, rfl⟩ .nil))⟩
  have hkeys : ∀ m ∈ members, KeyDenotes m.1 1 := by
    have hindex : ∀ m ∈ members, index? m.1 = some 1 := by decide
    exact fun m hm => index?_eq_some_iff.1 (hindex m hm)
  obtain ⟨hread, -, htable⟩ := read_by_denoted_index.2.2 o members hlists .text
  obtain ⟨table, hok⟩ := hread.2 fun m hm => ⟨1, by decide, hkeys m hm⟩
  refine ⟨hlists, table, hok, ((htable table hok).2.1 1 _).2 ⟨"01", ["b"], rfl, ?_, ?_, rfl⟩⟩
  · exact hkeys _ (List.mem_cons_of_mem _ List.mem_cons_self)
  · exact fun m hm _ => (show ∀ m ∈ members, m.1 ≤ "01" by decide) m hm

end ConstraintGraph.VariableTable
