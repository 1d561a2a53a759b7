import ConstraintGraph.Proofs.Reading.Numerals
import ConstraintGraph.Proofs.Reading.Rearrangement
import Mathlib.Data.List.Perm.Basic

namespace ConstraintGraph

variable {α β : Type} {read : Decoder α} {j : Json} {x : α}

/-- The decoder makes `x` of the value, wherever the value comes from and in whichever order the
members of its objects stand. -/
def Decoder.Reads (read : Decoder α) (j : Json) (x : α) : Prop :=
  ∀ (a : Json.Rearrangement) origin, read origin (.ofJson (a j)) = .ok x

theorem Decoder.Reads.run (h : read.Reads j x) : read.run j = .ok x := h .stay .value

theorem Decoder.Reads.run_normalize (h : read.Reads j x) : read.run j.normalize = .ok x :=
  h .sorted .value

namespace Json

theorem Outline.ofItems_eq_map (items : List Json) :
    Outline.ofItems items = items.map Outline.ofJson := by
  induction items with
  | nil => rfl
  | cons x xs ih => rw [ofItems, List.map_cons, ih]

theorem Outline.ofMembers_eq_map (ms : List (String × Json)) :
    Outline.ofMembers ms = ms.map fun m => (.ofText m.1, .ofJson m.2) := by
  induction ms with
  | nil => rfl
  | cons m ms ih => rw [ofMembers, List.map_cons, ih]

theorem mapM_ok {γ : Type} {f : β → Except DecodeError γ} {items : List β} {xs : List γ}
    (h : List.Forall₂ (fun item x => f item = .ok x) items xs) : items.mapM f = .ok xs := by
  induction h with
  | nil => rfl
  | cons hx _ ih =>
    rw [List.mapM_cons, hx, ih]
    rfl

theorem mapM_eq_ok_iff {γ : Type} {f : β → Except DecodeError γ} {items : List β} {xs : List γ} :
    items.mapM f = .ok xs ↔ List.Forall₂ (fun item x => f item = .ok x) items xs := by
  refine ⟨fun h => ?_, mapM_ok⟩
  induction items generalizing xs with
  | nil =>
    cases h
    exact .nil
  | cons item items ih =>
    rw [List.mapM_cons] at h
    cases hitem : f item with
    | error fault =>
      rw [hitem] at h
      cases h
    | ok x =>
      cases hrest : items.mapM f with
      | error fault =>
        rw [hitem, hrest] at h
        cases h
      | ok rest =>
        rw [hitem, hrest] at h
        cases h
        exact .cons hitem (ih hrest)

theorem reads_string (s : String) : asString.Reads (.string s) s := by
  intro a origin
  rw [a.string, Outline.ofJson]
  rfl

theorem reads_uint32 (i : UInt32) : asUInt32.Reads (.int i.toNat) i := by
  intro a origin
  rw [a.int, Outline.ofJson, asUInt32_int]

theorem reads_uint64 (n : UInt64) : asUInt64.Reads (.int n.toNat) n := by
  intro a origin
  have hlt := n.toNat_lt
  have hrange : (0 : Int) ≤ n.toNat ∧ (n.toNat : Int) ≤ 18446744073709551615 := by omega
  rw [a.int, Outline.ofJson, asUInt64, asIntBetween, if_pos hrange, Except.map,
    Int.toNat_natCast, UInt64.ofNat_toNat]

theorem reads_int64 (n : Int64) : asInt64.Reads (.int n.toInt) n := by
  intro a origin
  rw [a.int, Outline.ofJson, asInt64, asIntBetween, if_pos ⟨n.minValue_le_toInt, n.toInt_le⟩,
    Except.map, Int64.ofInt_toInt]

theorem reads_double (x : Binary64) : asDouble.Reads (.double x) x := by
  intro a origin
  rw [a.double, Outline.ofJson]
  rfl

theorem reads_any (c : CanonicalJson) : asAny.Reads c.json c := by
  intro a origin
  have hnormal : CanonicalJson.ofJson (a c.json) = .ofJson c.json :=
    CanonicalJson.ext (a.normalize c.json)
  rw [asAny, Outline.toJson?_ofJson]
  show Except.ok (CanonicalJson.ofJson (a c.json)) = .ok c
  rw [hnormal, CanonicalJson.ofJson_json]

theorem reads_null : (asOption read).Reads .null none := by
  intro a origin
  rw [a.null, Outline.ofJson]
  rfl

/-- A value is read with leave to be absent, too, unless it is `null`. -/
theorem reads_some (h : read.Reads j x) (hj : j ≠ .null) : (asOption read).Reads j (some x) := by
  intro a origin
  have hpresent : Outline.ofJson (a j) ≠ .null := by
    intro hnull
    refine hj (a.eq_null ?_)
    cases hvalue : a j <;> rw [hvalue, Outline.ofJson] at hnull <;> first | rfl | cases hnull
  have hsome : asOption read origin (.ofJson (a j)) = (read origin (.ofJson (a j))).map some := by
    unfold asOption
    split
    · contradiction
    · rfl
  rw [hsome, h a origin]
  rfl

theorem reads_option {write : α → Json} (x : Option α) (h : ∀ y, read.Reads (write y) y)
    (hwrite : ∀ y, write y ≠ .null) : (asOption read).Reads (ofOption write x) x :=
  match x with
  | none => reads_null
  | some y => reads_some (h y) (hwrite y)

theorem reads_list {write : α → Json} {xs : List α} (h : ∀ x ∈ xs, read.Reads (write x) x) :
    (asList read).Reads (.array (xs.map write)) xs := by
  intro a origin
  rw [a.array, Outline.ofJson, Outline.ofItems_eq_map]
  refine mapM_ok ?_
  rw [List.forall₂_map_left_iff, List.forall₂_map_left_iff, List.forall₂_map_left_iff,
    List.forall₂_same]
  exact fun x hx => h x hx a origin

theorem reads_strings (texts : List String) : (asList asString).Reads (ofStrings texts) texts :=
  reads_list fun s _ => reads_string s

theorem reads_stringSet (s : Std.ExtTreeSet String) :
    asStringSet.Reads (ofStrings s.toList) s := by
  intro a origin
  have hsame : Std.ExtTreeSet.ofList s.toList = s := by
    refine Std.ExtTreeSet.ext_mem fun k => ?_
    rw [Std.ExtTreeSet.mem_ofList, List.contains_iff_mem, Std.ExtTreeSet.mem_toList]
  rw [asStringSet, reads_strings s.toList a origin, Except.map, hsame]

/-- The two items of an array are read each by its own decoder. -/
theorem reads_pair {second : Decoder β} {k : Json} {y : β} (hx : read.Reads j x)
    (hy : second.Reads k y) : (asPair read second).Reads (.array [j, k]) (x, y) := by
  intro a origin
  rw [a.array, Outline.ofJson, List.map_cons, List.map_cons, List.map_nil, Outline.ofItems,
    Outline.ofItems, Outline.ofItems, asPair, hx a origin]
  show ((second origin (.ofJson (a k))).bind fun y => .ok (x, y)) = _
  rw [hy a origin]
  rfl

/-- An alternative that carries something. -/
theorem reads_variant {read : String → Decoder α} {name : String}
    (h : (read name).Reads j x) : (asVariant read).Reads (.object [(name, j)]) x := by
  intro a origin
  rw [a.object_singleton, Outline.ofJson, Outline.ofMembers, Outline.ofMembers]
  show ((read name origin (.ofJson (a j))).bind fun x => .ok x) = .ok x
  rw [h a origin]
  rfl

/-- An alternative that is its name. -/
theorem reads_variant_name {read : String → Decoder α} {name : String}
    (h : ∀ origin, read name origin .null = .ok x) : (asVariant read).Reads (.string name) x := by
  intro a origin
  rw [a.string, Outline.ofJson]
  exact h origin

theorem reads_enum {table : List (String × α)} {name : String} (h : table.lookup name = some x) :
    (asEnum table).Reads (.string name) x := by
  refine reads_variant_name fun origin => ?_
  rw [h]
  rfl

section Maps

variable {readKey : Key → Except DecodeError β} {spell : β → String}

/-- The entries of an object with arbitrary keys come back, perhaps in another order. -/
theorem asEntries_perm {write : β × α → Json} {entries : List (β × α)}
    (hkeys : (entries.map Prod.fst).Nodup)
    (hread : ∀ k, readKey (.ofText (spell k)) = .ok k)
    (h : ∀ e ∈ entries, read.Reads (write e) e.2) (a : Rearrangement) (origin : Origin) :
    ∃ found, found.Perm entries ∧ asEntries readKey read origin
      (.ofJson (a (.object (entries.map fun e => (spell e.1, write e))))) = .ok found := by
  -- Keys that are read back are spelled differently.
  have hspell : spell.Injective := fun k l hkl =>
    Except.ok.inj ((hread k).symm.trans (hkl ▸ hread l))
  have hnodup : ((entries.map fun e => (spell e.1, write e)).map Prod.fst).Nodup := by
    rw [List.map_map]
    exact List.map_map (f := Prod.fst) (g := spell) ▸ hkeys.map hspell
  obtain ⟨ms, happly, hperm⟩ := a.object _ hnodup
  have hentry : List.Forall₂ (fun m e => (do
      return (← readKey (.ofText m.1), ← read origin (.ofJson m.2))) = Except.ok e)
      ((entries.map fun e => (spell e.1, write e)).map fun m => (m.1, a m.2)) entries := by
    rw [List.forall₂_map_left_iff, List.forall₂_map_left_iff, List.forall₂_same]
    intro e he
    rw [hread, h e he a origin]
    rfl
  -- What one order gives entry by entry, the other one gives in its own order.
  obtain ⟨found, hfound, hsame⟩ := List.perm_comp_forall₂ hperm hentry
  refine ⟨found, hsame, ?_⟩
  rw [happly, Outline.ofJson, Outline.ofMembers_eq_map]
  exact mapM_ok (List.forall₂_map_left_iff.2 hfound)

/-- In a row that is in order, the first element with a property is the one that comes before all
others that have it. -/
theorem find?_eq_some_iff_of_pairwise {r : β → β → Prop} {l : List β} {f : β → Bool} {y : β}
    (hl : l.Pairwise r) (hasymm : ∀ {a b}, r a b → ¬ r b a) :
    l.find? f = some y ↔ y ∈ l ∧ f y = true ∧ ∀ z ∈ l, f z = true → z = y ∨ r y z := by
  have hfirst : ∀ y, l.find? f = some y → ∀ z ∈ l, f z = true → z = y ∨ r y z := by
    intro y hfind z hz hfz
    obtain ⟨-, before, behind, rfl, hbefore⟩ := List.find?_eq_some_iff_append.1 hfind
    rcases List.mem_append.1 hz with hz | hz
    · have hnot := hbefore z hz
      rw [hfz] at hnot
      cases hnot
    · rcases List.mem_cons.1 hz with heq | hz
      · exact Or.inl heq
      · exact Or.inr (List.rel_of_pairwise_cons (List.pairwise_append.1 hl).2.1 hz)
  constructor
  · intro hfind
    exact ⟨List.mem_of_find?_eq_some hfind, List.find?_some hfind, hfirst y hfind⟩
  · rintro ⟨hy, hfy, hleast⟩
    obtain ⟨z, hfind⟩ := Option.isSome_iff_exists.1 (List.find?_isSome.2 ⟨y, hy, hfy⟩)
    rcases hfirst z hfind y hy hfy with rfl | hzy
    · exact hfind
    · rcases hleast z (List.mem_of_find?_eq_some hfind) (List.find?_some hfind) with rfl | hyz
      · exact hfind
      · exact absurd hzy (hasymm hyz)

section Entries

variable [Ord β] [Std.TransOrd β]

theorem nodup_keys (m : Std.ExtTreeMap β α) : (m.toList.map Prod.fst).Nodup := by
  rw [Std.ExtTreeMap.map_fst_toList_eq_keys]
  exact Std.ExtTreeMap.nodup_keys

section Ordered

variable [Std.LawfulEqOrd β] {m : Std.ExtTreeMap β α} {f : β × α → Bool} {e e' : β × α}

/-- No two entries have one key. -/
theorem eq_or_lt_iff_isLE (he : e ∈ m.toList) (he' : e' ∈ m.toList) :
    e' = e ∨ compare e.1 e'.1 = .lt ↔ (compare e.1 e'.1).isLE = true := by
  rw [Ordering.isLE_iff_eq_lt_or_eq_eq, or_comm]
  refine or_congr_right ?_
  rw [Std.LawfulEqCmp.compare_eq_iff_eq]
  constructor
  · rintro rfl
    rfl
  · intro hkey
    have hvalue := Std.ExtTreeMap.mem_toList_iff_getElem?_eq_some.1 he
    have hvalue' := Std.ExtTreeMap.mem_toList_iff_getElem?_eq_some.1 he'
    rw [← hkey] at hvalue'
    exact Prod.ext hkey.symm (Option.some_inj.1 (hvalue'.symm.trans hvalue))

/-- The first entry with a property is the one with the least key. -/
theorem find?_toList_eq_some_iff :
    m.toList.find? f = some e ↔ e ∈ m.toList ∧ f e = true ∧
      ∀ e' ∈ m.toList, f e' = true → (compare e.1 e'.1).isLE = true := by
  rw [find?_eq_some_iff_of_pairwise Std.ExtTreeMap.ordered_keys_toList Std.OrientedCmp.not_lt_of_lt]
  refine and_congr_right fun he => and_congr_right fun _ => forall₂_congr fun e' he' => ?_
  rw [eq_or_lt_iff_isLE he he']

/-- The last entry with a property is the one with the greatest key. -/
theorem find?_reverse_toList_eq_some_iff :
    m.toList.reverse.find? f = some e ↔ e ∈ m.toList ∧ f e = true ∧
      ∀ e' ∈ m.toList, f e' = true → (compare e'.1 e.1).isLE = true := by
  have hordered := List.pairwise_reverse.2 (Std.ExtTreeMap.ordered_keys_toList (t := m))
  rw [find?_eq_some_iff_of_pairwise hordered Std.OrientedCmp.not_lt_of_lt]
  simp only [List.mem_reverse]
  refine and_congr_right fun he => and_congr_right fun _ => forall₂_congr fun e' he' => ?_
  rw [← eq_or_lt_iff_isLE he' he, eq_comm (a := e)]

end Ordered

variable [Std.LawfulEqOrd β] [BEq β] [LawfulBEq β]

/-- Of the entries with one key the last one stays. -/
theorem getElem?_ofList_eq (entries : List (β × α)) (k : β) :
    (Std.ExtTreeMap.ofList entries)[k]? = (entries.findRev? (·.1 == k)).map Prod.snd := by
  rw [List.findRev?_eq_find?_reverse]
  induction entries using List.reverseRecOn with
  | nil => rfl
  | append_singleton entries e ih =>
    rw [Std.ExtTreeMap.ofList_eq_insertMany_empty] at ih ⊢
    rw [Std.ExtTreeMap.insertMany_append, Std.ExtTreeMap.insertMany_list_singleton,
      Std.ExtTreeMap.getElem?_insert, List.reverse_append, ih, List.reverse_singleton,
      List.singleton_append, List.find?_cons]
    by_cases hk : e.1 = k
    · rw [if_pos (Std.LawfulEqCmp.compare_eq_iff_eq.2 hk), beq_iff_eq.2 hk]
      rfl
    · rw [if_neg (mt Std.LawfulEqCmp.compare_eq_iff_eq.1 hk), beq_false_of_ne hk]

/-- A map has the entries that it is made of, if no key is repeated. -/
theorem toList_ofList_perm {entries : List (β × α)} (hkeys : (entries.map Prod.fst).Nodup) :
    (Std.ExtTreeMap.ofList entries).toList.Perm entries := by
  have hdistinct : entries.Pairwise fun e e' => ¬ compare e.1 e'.1 = .eq :=
    (List.pairwise_map.1 hkeys).imp fun hne heq => hne (Std.LawfulEqCmp.eq_of_compare heq)
  have hnodup := List.Nodup.of_map Prod.fst (nodup_keys (Std.ExtTreeMap.ofList entries))
  rw [List.perm_ext_iff_of_nodup hnodup (List.Nodup.of_map Prod.fst hkeys)]
  rintro ⟨k, x⟩
  rw [Std.ExtTreeMap.mem_toList_iff_getElem?_eq_some]
  constructor
  · intro hfound
    have hk : k ∈ entries.map Prod.fst := by
      have hmem : k ∈ Std.ExtTreeMap.ofList entries :=
        Std.ExtTreeMap.mem_iff_isSome_getElem?.2 (hfound ▸ rfl)
      rwa [Std.ExtTreeMap.mem_ofList, List.contains_iff_mem] at hmem
    obtain ⟨⟨_, y⟩, he, rfl⟩ := List.mem_map.1 hk
    rw [Std.ExtTreeMap.getElem?_ofList_of_mem Std.ReflCmp.compare_self hdistinct he,
      Option.some_inj] at hfound
    rwa [← hfound]
  · exact Std.ExtTreeMap.getElem?_ofList_of_mem Std.ReflCmp.compare_self hdistinct

/-- A map is made of its entries in any order. -/
theorem ofList_eq_of_perm {found entries : List (β × α)} (h : found.Perm entries)
    (hkeys : (entries.map Prod.fst).Nodup) :
    Std.ExtTreeMap.ofList found = Std.ExtTreeMap.ofList entries := by
  have hfound : (found.map Prod.fst).Nodup := (h.map Prod.fst).nodup_iff.2 hkeys
  exact Std.ExtTreeMap.ext_toList
    ((toList_ofList_perm hfound).trans (h.trans (toList_ofList_perm hkeys).symm))

theorem ofList_toList (m : Std.ExtTreeMap β α) : Std.ExtTreeMap.ofList m.toList = m :=
  Std.ExtTreeMap.ext_toList (toList_ofList_perm (nodup_keys m))

end Entries

/-- Members with different keys make up a map. -/
theorem reads_stringEntries {write : String × α → Json} {entries : List (String × α)}
    (hkeys : (entries.map Prod.fst).Nodup) (h : ∀ e ∈ entries, read.Reads (write e) e.2) :
    (asStringMap read).Reads (.object (entries.map fun e => (e.1, write e)))
      (.ofList entries) := by
  intro a origin
  obtain ⟨found, hperm, hfound⟩ : ∃ found, found.Perm entries ∧ asEntries Key.asText read origin
      (.ofJson (a (.object (entries.map fun e => (e.1, write e))))) = .ok found :=
    asEntries_perm hkeys (fun key => (rfl : Key.asText (.ofText (id key)) = .ok key)) h a origin
  rw [asStringMap, hfound]
  exact congrArg Except.ok (ofList_eq_of_perm hperm hkeys)

theorem reads_stringMap {write : String × α → Json} (m : Std.ExtTreeMap String α)
    (h : ∀ e ∈ m.toList, read.Reads (write e) e.2) :
    (asStringMap read).Reads (.object (m.toList.map fun e => (e.1, write e))) m := by
  have hentries := reads_stringEntries (nodup_keys m) h
  rwa [ofList_toList] at hentries

theorem reads_indexMap {write : UInt32 × α → Json} (m : Std.ExtTreeMap UInt32 α)
    (h : ∀ e ∈ m.toList, read.Reads (write e) e.2) :
    (asIndexMap read).Reads (.object (m.toList.map fun e => (toString e.1.toNat, write e))) m := by
  intro a origin
  obtain ⟨found, hperm, hfound⟩ :=
    asEntries_perm (nodup_keys m) Key.asUInt32_toString h a origin
  rw [asIndexMap, hfound]
  exact congrArg Except.ok ((ofList_eq_of_perm hperm (nodup_keys m)).trans (ofList_toList m))

end Maps

end Json
end ConstraintGraph
