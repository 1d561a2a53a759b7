import ConstraintGraph.Json.Basic

namespace ConstraintGraph

namespace Json

def addMember (key : String) (value : Json) : List (String × Json) → List (String × Json)
  | [] => [(key, value)]
  | (l, w) :: ms =>
    match compare key l with
    | .lt => (key, value) :: (l, w) :: ms
    | .eq => (l, w) :: ms
    | .gt => (l, w) :: addMember key value ms

mutual

def normalize : Json → Json
  | .null => .null
  | .bool b => .bool b
  | .int n => .int n
  | .double x => .double x
  | .string s => .string s
  | .array items => .array (normalizeItems items)
  | .object members => .object (normalizeMembers members)

def normalizeItems : List Json → List Json
  | [] => []
  | x :: xs => normalize x :: normalizeItems xs

def normalizeMembers : List (String × Json) → List (String × Json)
  | [] => []
  | (k, v) :: ms => addMember k (normalize v) (normalizeMembers ms)

end

def KeysAscend (members : List (String × Json)) : Prop :=
  members.Pairwise fun a b => compare a.1 b.1 = .lt

mutual

def IsCanonical : Json → Prop
  | .null | .bool _ | .int _ | .double _ | .string _ => True
  | .array items => AreCanonical items
  | .object members => KeysAscend members ∧ HaveCanonicalValues members

def AreCanonical : List Json → Prop
  | [] => True
  | x :: xs => IsCanonical x ∧ AreCanonical xs

def HaveCanonicalValues : List (String × Json) → Prop
  | [] => True
  | (_, v) :: ms => IsCanonical v ∧ HaveCanonicalValues ms

end

theorem mem_addMember {k : String} {v : Json} {ms : List (String × Json)} {m : String × Json}
    (h : m ∈ addMember k v ms) : m = (k, v) ∨ m ∈ ms := by
  induction ms with
  | nil => simpa [addMember] using h
  | cons m' ms ih =>
    obtain ⟨l, w⟩ := m'
    simp only [addMember] at h
    split at h
    · simpa using h
    · exact .inr h
    · rcases List.mem_cons.1 h with rfl | h
      · simp
      · rcases ih h with rfl | h
        · simp
        · simp [h]

theorem keysAscend_addMember {k : String} {v : Json} {ms : List (String × Json)}
    (h : KeysAscend ms) : KeysAscend (addMember k v ms) := by
  induction ms with
  | nil => simp [addMember, KeysAscend]
  | cons m ms ih =>
    obtain ⟨l, w⟩ := m
    have hm := List.pairwise_cons.1 h
    simp only [addMember]
    split
    · rename_i hk
      refine List.pairwise_cons.2 ⟨fun m' hm' => ?_, h⟩
      rcases List.mem_cons.1 hm' with rfl | hm'
      · exact hk
      · exact Std.TransCmp.lt_trans hk (hm.1 m' hm')
    · exact h
    · rename_i hk
      refine List.pairwise_cons.2 ⟨fun m' hm' => ?_, ih hm.2⟩
      rcases mem_addMember hm' with rfl | hm'
      · exact Std.OrientedCmp.lt_of_gt hk
      · exact hm.1 m' hm'

theorem haveCanonicalValues_addMember {k : String} {v : Json} {ms : List (String × Json)}
    (hv : IsCanonical v) (h : HaveCanonicalValues ms) : HaveCanonicalValues (addMember k v ms) := by
  induction ms with
  | nil => simpa [addMember, HaveCanonicalValues] using hv
  | cons m ms ih =>
    obtain ⟨l, w⟩ := m
    simp only [HaveCanonicalValues] at h
    simp only [addMember]
    split
    · exact ⟨hv, h⟩
    · exact h
    · exact ⟨h.1, ih h.2⟩

mutual

theorem isCanonical_normalize : (j : Json) → IsCanonical (normalize j)
  | .null | .bool _ | .int _ | .double _ | .string _ => by simp [normalize, IsCanonical]
  | .array items => by
    simp only [normalize, IsCanonical]
    exact areCanonical_normalizeItems items
  | .object members => by
    simp only [normalize, IsCanonical]
    exact ⟨keysAscend_normalizeMembers members, haveCanonicalValues_normalizeMembers members⟩

theorem areCanonical_normalizeItems : (items : List Json) → AreCanonical (normalizeItems items)
  | [] => by simp [normalizeItems, AreCanonical]
  | x :: xs => by
    simp only [normalizeItems, AreCanonical]
    exact ⟨isCanonical_normalize x, areCanonical_normalizeItems xs⟩

theorem keysAscend_normalizeMembers :
    (members : List (String × Json)) → KeysAscend (normalizeMembers members)
  | [] => by simp [normalizeMembers, KeysAscend]
  | (_, _) :: ms => by
    simp only [normalizeMembers]
    exact keysAscend_addMember (keysAscend_normalizeMembers ms)

theorem haveCanonicalValues_normalizeMembers :
    (members : List (String × Json)) → HaveCanonicalValues (normalizeMembers members)
  | [] => by simp [normalizeMembers, HaveCanonicalValues]
  | (_, v) :: ms => by
    simp only [normalizeMembers]
    exact haveCanonicalValues_addMember (isCanonical_normalize v)
      (haveCanonicalValues_normalizeMembers ms)

end

theorem addMember_eq_cons {k : String} {v : Json} {ms : List (String × Json)}
    (h : KeysAscend ((k, v) :: ms)) : addMember k v ms = (k, v) :: ms := by
  cases ms with
  | nil => rfl
  | cons m ms =>
    have hk : compare k m.1 = .lt := (List.pairwise_cons.1 h).1 m (by simp)
    simp [addMember, hk]

mutual

/-- A canonical value is its own canonical form. -/
theorem normalize_eq_self : (j : Json) → IsCanonical j → normalize j = j
  | .null, _ | .bool _, _ | .int _, _ | .double _, _ | .string _, _ => by simp [normalize]
  | .array items, h => by
    simp only [IsCanonical] at h
    simp only [normalize, normalizeItems_eq_self items h]
  | .object members, h => by
    simp only [IsCanonical] at h
    simp only [normalize, normalizeMembers_eq_self members h.1 h.2]

theorem normalizeItems_eq_self : (items : List Json) → AreCanonical items →
    normalizeItems items = items
  | [], _ => by simp [normalizeItems]
  | x :: xs, h => by
    simp only [AreCanonical] at h
    simp only [normalizeItems, normalize_eq_self x h.1, normalizeItems_eq_self xs h.2]

theorem normalizeMembers_eq_self : (members : List (String × Json)) → KeysAscend members →
    HaveCanonicalValues members → normalizeMembers members = members
  | [], _, _ => by simp [normalizeMembers]
  | (k, v) :: ms, hk, hv => by
    simp only [HaveCanonicalValues] at hv
    simp only [normalizeMembers, normalize_eq_self v hv.1,
      normalizeMembers_eq_self ms (List.pairwise_cons.1 hk).2 hv.2, addMember_eq_cons hk]

end

end Json

structure CanonicalJson where
  json : Json
  isCanonical : json.IsCanonical

namespace CanonicalJson

theorem ext {a b : CanonicalJson} (h : a.json = b.json) : a = b := by
  cases a; cases b; cases h; rfl

instance : DecidableEq CanonicalJson := fun a b =>
  if h : a.json = b.json then isTrue (ext h) else isFalse fun e => h (e ▸ rfl)

def ofJson (j : Json) : CanonicalJson := ⟨j.normalize, j.isCanonical_normalize⟩

instance : Inhabited CanonicalJson := ⟨ofJson .null⟩

theorem ofJson_json (c : CanonicalJson) : ofJson c.json = c :=
  ext (Json.normalize_eq_self c.json c.isCanonical)

end CanonicalJson
end ConstraintGraph
