import ConstraintGraph.Proofs.Reading.Values

/-!
Reading records back. A record is known by what stands under each name. A part of it is read if its
fields are found there, or are not there and may be absent; the order of the members does not come
into it. Tagged records are the same once more, for what is left when the tag is taken out.
-/

namespace ConstraintGraph.Json

variable {α β : Type} {a : Rearrangement} {r : Record} {find : String → Option Json}
  {name : String} {j : Json} {read : Decoder α} {x : α} {ms : List (String × Json)}

/-- What a record shows of an object, if `find` gives the members of the object by their keys. -/
structure Record.Shows (a : Rearrangement) (r : Record) (find : String → Option Json) : Prop where
  fits : r.misfit = false
  members : ∃ ms, r.members = Outline.ofMembers ms ∧ (ms.map Prod.fst).Nodup ∧
    ∀ name j, (name, j) ∈ ms ↔ (find name).map a = some j

def hide (names : List String) (find : String → Option Json) (name : String) : Option Json :=
  if name ∈ names then none else find name

/-- The key of a member that may be left out. -/
theorem keys_omitted (key : String) (write : α → Json) (y : Option α) :
    ((y.map fun x => (key, write x)).toList.map Prod.fst).Sublist [key] := by
  cases y with
  | none => exact List.nil_sublist _
  | some x => exact List.Sublist.refl _

@[simp] theorem lookup_member (key name : String) (j : Json) (ms : List (String × Json)) :
    List.lookup name ((key, j) :: ms) = if name = key then some j else ms.lookup name := by
  by_cases h : name = key
  · rw [if_pos h, h]
    exact List.lookup_cons_self
  · rw [if_neg h, List.lookup_cons, beq_false_of_ne h]

@[simp] theorem lookup_omitted (key name : String) (write : α → Json) (y : Option α) :
    ((y.map fun x => (key, write x)).toList).lookup name =
      if name = key then y.map write else none := by
  cases y with
  | none => exact (ite_self none).symm
  | some x => exact lookup_member key name (write x) []

theorem lookup_eq_some_iff_mem (hms : (ms.map Prod.fst).Nodup) :
    ms.lookup name = some j ↔ (name, j) ∈ ms := by
  induction ms with
  | nil => exact iff_of_false (nomatch ·) List.not_mem_nil
  | cons m ms ih =>
    obtain ⟨k, v⟩ := m
    obtain ⟨hk, hms⟩ := List.nodup_cons.1 hms
    rw [lookup_member, List.mem_cons, Prod.mk.injEq]
    by_cases hname : name = k
    · have hother : (name, j) ∉ ms := fun hmem => hk (List.mem_map.2 ⟨_, hmem, hname⟩)
      rw [if_pos hname, or_iff_left hother, Option.some_inj, eq_comm, and_iff_right hname]
    · rw [if_neg hname, or_iff_right fun h => hname h.1]
      exact ih hms

theorem exists_of_mem_zipIdx {m : (Key × Outline) × Nat} {n : Nat}
    (hm : m ∈ (Outline.ofMembers ms).zipIdx n) :
    ∃ e ∈ ms, m.1 = (.ofText e.1, .ofJson e.2) := by
  rw [Outline.ofMembers_eq_map] at hm
  obtain ⟨e, he, heq⟩ := List.mem_map.1 (List.fst_mem_of_mem_zipIdx hm)
  exact ⟨e, he, heq.symm⟩

theorem filter_ofMembers_eq_nil (hname : name ∉ ms.map Prod.fst) (n : Nat) :
    ((Outline.ofMembers ms).zipIdx n).filter (fun ((key, _), _) => key.text? == some name) =
      [] := by
  rw [List.filter_eq_nil_iff]
  rintro ⟨_, place⟩ hm hkey
  obtain ⟨e, he, rfl⟩ := exists_of_mem_zipIdx hm
  exact hname (List.mem_map.2 ⟨e, he, Option.some_inj.1 (eq_of_beq hkey)⟩)

/-- A member whose name is not repeated is the only one under it. -/
theorem filter_ofMembers_eq_singleton (hms : (ms.map Prod.fst).Nodup) (hmem : (name, j) ∈ ms)
    (n : Nat) : ∃ place,
      ((Outline.ofMembers ms).zipIdx n).filter (fun ((key, _), _) => key.text? == some name) =
        [((.ofText name, .ofJson j), place)] := by
  induction ms generalizing n with
  | nil => cases hmem
  | cons m ms ih =>
    obtain ⟨hkey, hms⟩ := List.nodup_cons.1 hms
    rw [Outline.ofMembers, List.zipIdx_cons]
    rcases List.mem_cons.1 hmem with rfl | hmem
    · refine ⟨n, ?_⟩
      rw [List.filter_cons_of_pos, filter_ofMembers_eq_nil hkey]
      exact beq_self_eq_true (some name)
    · rw [List.filter_cons_of_neg]
      · exact ih hms hmem (n + 1)
      · intro heq
        have hname : m.1 = name := Option.some_inj.1 (eq_of_beq heq)
        exact hkey (hname ▸ List.mem_map_of_mem hmem)

theorem Part.seq_ok {p : Part (α → β)} {q : Part α} {f : α → β} (hp : p r = .ok f)
    (hq : q r = .ok x) : (p <*> q) r = .ok (f x) := by
  show Part.seq p (fun _ => q) r = _
  rw [Part.seq, hp, hq]

theorem Part.map_ok {p : Part α} (f : α → β) (hp : p r = .ok x) : (f <$> p) r = .ok (f x) :=
  Part.seq_ok (rfl : (pure f : Part (α → β)) r = .ok f) hp

namespace Record.Shows

variable (hr : r.Shows a find)
include hr

/-- A field that is there is read. -/
theorem field? (missing : Except DecodeError α) (h : find name = some j) (hj : read.Reads j x) :
    Part.field? name missing read r = .ok x := by
  obtain ⟨ms, hmembers, hms, hfind⟩ := hr.members
  have hmem : (name, a j) ∈ ms := (hfind name (a j)).2 (by rw [h, Option.map_some])
  obtain ⟨place, hfilter⟩ := filter_ofMembers_eq_singleton hms hmem 0
  unfold Part.field?
  rw [hmembers, hfilter]
  simp only [hj a r.origin]

theorem field (h : find name = some j) (hj : read.Reads j x) : Part.field name read r = .ok x :=
  hr.field? _ h hj

theorem fieldOr {y : α} (h : find name = some j) (hj : read.Reads j x) :
    Part.fieldOr name y read r = .ok x :=
  hr.field? _ h hj

theorem fieldOr_absent (h : find name = none) : Part.fieldOr name x read r = .ok x := by
  obtain ⟨ms, hmembers, -, hfind⟩ := hr.members
  have hname : name ∉ ms.map Prod.fst := by
    intro hmem
    obtain ⟨⟨_, j⟩, hj, rfl⟩ := List.mem_map.1 hmem
    have hfound := (hfind _ j).1 hj
    rw [h] at hfound
    cases hfound
  unfold Part.fieldOr Part.field?
  rw [hmembers, filter_ofMembers_eq_nil hname]
  rfl

/-- A field that is there with a value and left out without one. -/
theorem fieldOption {write : α → Json} {y : Option α} (h : find name = y.map write)
    (hread : ∀ x ∈ y, read.Reads (write x) x) (hwrite : ∀ x ∈ y, write x ≠ .null) :
    Part.fieldOption name read r = .ok y :=
  match y with
  | none => hr.fieldOr_absent h
  | some x => hr.fieldOr h (reads_some (hread x rfl) (hwrite x rfl))

/-- The other members are there all together, and only they. -/
theorem others (names : List String) :
    ∃ rest, Part.others names r = .ok rest ∧ rest.Shows a (hide names find) := by
  obtain ⟨ms, hmembers, hms, hfind⟩ := hr.members
  let left : Key × Outline → Bool := fun m => !m.1.text?.any names.contains
  let rest := (Outline.ofMembers ms).zipIdx.filter fun m => left m.1
  -- The members were written, so none of them has a broken key or value.
  have hreadable : rest.find? (fun m => m.1.1.text?.isNone || m.1.2.toJson?.isNone) = none := by
    rw [List.find?_eq_none]
    rintro ⟨_, place⟩ hm
    obtain ⟨e, -, rfl⟩ := exists_of_mem_zipIdx (List.mem_of_mem_filter hm)
    show ¬ (false || (Outline.ofJson e.2).toJson?.isNone) = true
    rw [Outline.toJson?_ofJson]
    exact Bool.false_ne_true
  have hrest : rest.map (·.1) = Outline.ofMembers (ms.filter fun m => !names.contains m.1) := by
    calc rest.map (·.1)
      _ = ((Outline.ofMembers ms).zipIdx.map (·.1)).filter left := by
        rw [List.filter_map]
        rfl
      _ = (Outline.ofMembers ms).filter left := by rw [List.zipIdx_map_fst]
      _ = Outline.ofMembers (ms.filter fun m => !names.contains m.1) := by
        rw [Outline.ofMembers_eq_map, Outline.ofMembers_eq_map, List.filter_map]
        rfl
  refine ⟨⟨.tagged, rest.map (·.1), r.misfit⟩, ?_, hr.fits, _, hrest, ?_, ?_⟩
  · unfold Part.others
    rw [hmembers]
    dsimp only
    split
    · next hfound => exact nomatch hfound.symm.trans hreadable
    · rfl
  · exact hms.sublist (List.filter_sublist.map _)
  · intro name j
    rw [List.mem_filter, hfind, hide]
    by_cases hname : name ∈ names
    · simp [hname]
    · simp [hname]

/-- An object that was written has nothing broken in it, so that what a part reads is what is
read. -/
theorem read_eq {part : Part α} (h : part r = .ok x) : r.read part = .ok x := by
  obtain ⟨ms, hmembers, -⟩ := hr.members
  have hunbroken : Part.unbroken r = .ok () := by
    have hnone : r.members.zipIdx.find? (fun m => m.1.1.text?.isNone || m.1.2.isBroken) =
        none := by
      rw [hmembers, List.find?_eq_none]
      rintro ⟨_, place⟩ hm
      obtain ⟨e, -, rfl⟩ := exists_of_mem_zipIdx hm
      show ¬ (false || (Outline.ofJson e.2).isBroken) = true
      rw [Outline.isBroken_ofJson]
      exact Bool.false_ne_true
    unfold Part.unbroken
    rw [hnone]
  have hboth : (part <* Part.unbroken) r = .ok x := Part.seq_ok (Part.map_ok _ h) hunbroken
  rw [Record.read, hboth, hr.fits]
  rfl

/-- The alternative that the tag names is read out of the other members. -/
theorem alternative_eq {alternatives : List (Alternative α)} {tag : String} {found : Alternative α}
    (htag : find name = some (.string tag))
    (hfound : alternatives.find? (·.tag == tag) = some found)
    (h : ∀ rest : Record, rest.Shows a (hide [name] find) → found.content rest = .ok x) :
    r.alternative name alternatives = .ok x := by
  have htagged : (asTag alternatives).Reads (.string tag) found := by
    intro a origin
    rw [a.string, Outline.ofJson, asTag]
    simp only [hfound]
  obtain ⟨rest, hothers, hrest⟩ := hr.others [name]
  have hboth := Part.seq_ok (Part.map_ok Prod.mk (hr.field htag htagged)) hothers
  show (r.read (Prod.mk <$> Part.field name (asTag alternatives) <*> Part.others [name])).bind _ = _
  rw [hr.read_eq hboth]
  exact hrest.read_eq (h rest hrest)

end Record.Shows

/-- However the members of an object stand, it is a record that shows them. -/
theorem exists_shows (hms : (ms.map Prod.fst).Nodup) (a : Rearrangement) (origin : Origin) :
    ∃ members, Outline.ofJson (a (.object ms)) = .object members ∧
      (Record.mk origin members false).Shows a (List.lookup · ms) := by
  obtain ⟨ms', happly, hperm⟩ := a.object ms hms
  refine ⟨Outline.ofMembers ms', by rw [happly, Outline.ofJson], rfl, ms', rfl, ?_, ?_⟩
  · refine (hperm.map Prod.fst).nodup_iff.2 ?_
    rwa [List.map_map]
  · intro name j
    rw [hperm.mem_iff, List.mem_map, Option.map_eq_some_iff]
    constructor
    · rintro ⟨⟨_, v⟩, hmem, heq⟩
      obtain ⟨rfl, rfl⟩ := Prod.mk.inj heq
      exact ⟨v, (lookup_eq_some_iff_mem hms).2 hmem, rfl⟩
    · rintro ⟨v, hlookup, rfl⟩
      exact ⟨(name, v), (lookup_eq_some_iff_mem hms).1 hlookup, rfl⟩

/-- A record of which some members are read at once and the others are kept for later. -/
theorem exists_asObject {part : Part α} {names : List String} {x : Record → α}
    (hms : (ms.map Prod.fst).Nodup)
    (h : ∀ a (r rest : Record), r.Shows a (List.lookup · ms) →
      Part.others names r = .ok rest → part r = .ok (x rest))
    (a : Rearrangement) (origin : Origin) :
    ∃ rest, asObject part origin (.ofJson (a (.object ms))) = .ok (x rest) ∧
      rest.Shows a (hide names (List.lookup · ms)) := by
  obtain ⟨members, hobject, hr⟩ := exists_shows hms a origin
  obtain ⟨rest, hothers, hrest⟩ := hr.others names
  refine ⟨rest, ?_, hrest⟩
  rw [hobject]
  exact hr.read_eq (h a _ rest hr hothers)

/-- A record is read back if its parts are wherever its fields are shown. -/
theorem reads_record {names : List String} {part : Part α} (hms : (ms.map Prod.fst).Nodup)
    (h : ∀ a (r : Record), r.Shows a (List.lookup · ms) → part r = .ok x) :
    (asRecord names part).Reads (.object ms) x := by
  intro a origin
  obtain ⟨members, hobject, hr⟩ := exists_shows hms a origin
  rw [hobject]
  exact hr.read_eq (h a _ hr)

/-- A tagged record is read back if the parts of the alternative are, with the tag hidden. -/
theorem reads_tagged {alternatives : List (Alternative α)} {tag : String} {found : Alternative α}
    (hms : (ms.map Prod.fst).Nodup) (htag : ms.lookup name = some (.string tag))
    (hfound : alternatives.find? (·.tag == tag) = some found)
    (h : ∀ a (r : Record), r.Shows a (hide [name] (List.lookup · ms)) → found.content r = .ok x) :
    (asTagged name alternatives).Reads (.object ms) x := by
  intro a origin
  obtain ⟨members, hobject, hr⟩ := exists_shows hms a origin
  rw [hobject]
  exact hr.alternative_eq htag hfound (h a)

end ConstraintGraph.Json
