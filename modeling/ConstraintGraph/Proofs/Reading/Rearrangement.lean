import ConstraintGraph.Json.Canonical
import Mathlib.Data.List.Nodup

/-!
Values that differ in the order of members only. A value is written with the members of its objects
in one order and may come back with them in another: whoever kept it in between may have sorted the
keys. What reads a value back is proved for every rearrangement, so for the value as it was written
and for its canonical form alike.
-/

namespace ConstraintGraph.Json

theorem addMember_perm {key : String} {value : Json} {ms : List (String × Json)}
    (hkey : key ∉ ms.map Prod.fst) : (addMember key value ms).Perm ((key, value) :: ms) := by
  induction ms with
  | nil => exact .refl _
  | cons m ms ih =>
    obtain ⟨l, w⟩ := m
    rw [List.map_cons, List.mem_cons, not_or] at hkey
    unfold addMember
    split
    · exact .refl _
    case h_2 heq => exact absurd (Std.LawfulEqCmp.eq_of_compare heq) hkey.1
    · exact ((ih hkey.2).cons (l, w)).trans (.swap ..)

/-- Where no key is repeated, the canonical form keeps all members. -/
theorem normalizeMembers_perm {ms : List (String × Json)} (hms : (ms.map Prod.fst).Nodup) :
    (normalizeMembers ms).Perm (ms.map fun m => (m.1, m.2.normalize)) := by
  induction ms with
  | nil => exact .refl _
  | cons m ms ih =>
    obtain ⟨hkey, hms⟩ := List.nodup_cons.1 hms
    have hperm := ih hms
    -- The members behind `m` have the keys that they had before.
    have hkeys : ((normalizeMembers ms).map Prod.fst).Perm (ms.map Prod.fst) := by
      refine (hperm.map Prod.fst).trans (.of_eq ?_)
      rw [List.map_map]
      rfl
    have hadd : (addMember m.1 m.2.normalize (normalizeMembers ms)).Perm
        ((m.1, m.2.normalize) :: normalizeMembers ms) :=
      addMember_perm (mt hkeys.mem_iff.1 hkey)
    exact hadd.trans (hperm.cons _)

theorem normalizeItems_eq_map (items : List Json) : normalizeItems items = items.map normalize := by
  induction items with
  | nil => rfl
  | cons x xs ih => rw [normalizeItems, List.map_cons, ih]

/-- A canonical form is its own. -/
theorem normalize_normalize (j : Json) : j.normalize.normalize = j.normalize :=
  normalize_eq_self _ (isCanonical_normalize j)

def IsScalar : Json → Prop
  | .null | .bool _ | .int _ | .double _ | .string _ => True
  | .array _ | .object _ => False

/-- Puts the members of objects, on every level, in some order. Of an object in which a key is
repeated nothing is said but that its canonical form stays. -/
structure Rearrangement where
  apply : Json → Json
  scalar : ∀ j, j.IsScalar → apply j = j
  array : ∀ items, apply (.array items) = .array (items.map apply)
  object : ∀ ms, (ms.map Prod.fst).Nodup →
    ∃ ms', apply (.object ms) = .object ms' ∧ ms'.Perm (ms.map fun m => (m.1, apply m.2))
  normalize : ∀ j, (apply j).normalize = j.normalize

namespace Rearrangement

instance : CoeFun Rearrangement fun _ => Json → Json := ⟨apply⟩

def stay : Rearrangement where
  apply j := j
  scalar _ _ := rfl
  array items := by rw [List.map_id']
  object ms _ := ⟨ms, rfl, .of_eq (List.map_id' ms).symm⟩
  normalize _ := rfl

def sorted : Rearrangement where
  apply := Json.normalize
  scalar
    | .null, _ | .bool _, _ | .int _, _ | .double _, _ | .string _, _ => by rw [Json.normalize]
  array items := by rw [Json.normalize, normalizeItems_eq_map]
  object ms hms := ⟨normalizeMembers ms, by rw [Json.normalize], normalizeMembers_perm hms⟩
  normalize := normalize_normalize

variable (a : Rearrangement)

theorem string (s : String) : a (.string s) = .string s := a.scalar _ trivial

theorem int (n : Int) : a (.int n) = .int n := a.scalar _ trivial

theorem double (x : Binary64) : a (.double x) = .double x := a.scalar _ trivial

theorem null : a .null = .null := a.scalar _ trivial

/-- A single member has no other place to go to. -/
theorem object_singleton (key : String) (value : Json) :
    a (.object [(key, value)]) = .object [(key, a value)] := by
  obtain ⟨ms, happly, hperm⟩ := a.object [(key, value)] (List.nodup_singleton key)
  rw [happly, List.perm_singleton.1 hperm]

/-- Only `null` is rearranged to `null`. -/
theorem eq_null {j : Json} (h : a j = .null) : j = .null := by
  have hnormal : j.normalize = .null := by rw [← a.normalize, h, Json.normalize]
  cases j <;> simp only [Json.normalize, reduceCtorEq] at hnormal
  rfl

end Rearrangement
end ConstraintGraph.Json
