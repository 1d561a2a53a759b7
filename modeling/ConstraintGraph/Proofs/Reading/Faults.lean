import ConstraintGraph.Proofs.Reading.Validation

namespace ConstraintGraph

section ReportsFirst

variable {α ε π : Type} {lt : π → π → Prop} {check check' : Except ε Unit}
  {bad bad' : π → ε → Prop}

/-- The check finds what is wrong, and of several faults it reports the first. -/
structure ReportsFirst (lt : π → π → Prop) (bad : π → ε → Prop) (check : Except ε Unit) : Prop where
  none_of_ok : check = .ok () → ∀ p e, ¬ bad p e
  first_of_error : ∀ e, check = .error e →
    ∃ p, bad p e ∧ ∀ p' e', bad p' e' → p' = p ∨ lt p p'

theorem ReportsFirst.congr (h : ReportsFirst lt bad check) (hbad : ∀ p e, bad p e ↔ bad' p e) :
    ReportsFirst lt bad' check := by
  have hsame : bad = bad' := by
    funext p e
    exact propext (hbad p e)
  exact hsame ▸ h

theorem ReportsFirst.pass (hbad : ∀ p e, ¬ bad p e) : ReportsFirst lt bad (.ok ()) :=
  ⟨fun _ => hbad, fun _ h => nomatch h⟩

/-- One check after another, if what the first one looks at comes first. -/
theorem ReportsFirst.bind (h : ReportsFirst lt bad check) (h' : ReportsFirst lt bad' check')
    (hlt : ∀ p e p' e', bad p e → bad' p' e' → lt p p') :
    ReportsFirst lt (fun p e => bad p e ∨ bad' p e) (check.bind fun _ => check') := by
  constructor
  · intro hok p e hfault
    cases hcheck : check with
    | error e' =>
      rw [hcheck] at hok
      cases hok
    | ok =>
      rw [hcheck] at hok
      rcases hfault with hfault | hfault
      · exact h.none_of_ok hcheck p e hfault
      · exact h'.none_of_ok hok p e hfault
  · intro e herror
    cases hcheck : check with
    | error e' =>
      rw [hcheck] at herror
      obtain rfl : e' = e := Except.error.inj herror
      obtain ⟨p, hp, hfirst⟩ := h.first_of_error e' hcheck
      refine ⟨p, Or.inl hp, fun p' e'' hfault => ?_⟩
      rcases hfault with hfault | hfault
      · exact hfirst p' e'' hfault
      · -- The second check did not run. What it would find comes later.
        exact Or.inr (hlt p e' p' e'' hp hfault)
    | ok =>
      rw [hcheck] at herror
      obtain ⟨p, hp, hfirst⟩ := h'.first_of_error e herror
      refine ⟨p, Or.inr hp, fun p' e'' hfault => ?_⟩
      rcases hfault with hfault | hfault
      · exact absurd hfault (h.none_of_ok hcheck p' e'')
      · exact hfirst p' e'' hfault

/-- The same check of all elements of a list, if what is looked at in an element comes before what
is looked at in the later ones. -/
theorem ReportsFirst.forM {f : α → Except ε Unit} {bad : α → π → ε → Prop} {l : List α}
    (h : ∀ x ∈ l, ReportsFirst lt (bad x) (f x))
    (hlt : l.Pairwise fun x y => ∀ p e p' e', bad x p e → bad y p' e' → lt p p') :
    ReportsFirst lt (fun p e => ∃ x ∈ l, bad x p e) (l.forM f) := by
  induction l with
  | nil => exact .pass fun p e ⟨x, hx, _⟩ => nomatch hx
  | cons x l ih =>
    obtain ⟨hhead, htail⟩ := List.pairwise_cons.1 hlt
    have hrest := ih (fun y hy => h y (List.mem_cons_of_mem x hy)) htail
    have hboth := (h x List.mem_cons_self).bind hrest fun p e p' e' hp hp' => by
      obtain ⟨y, hy, hp'⟩ := hp'
      exact hhead y hy p e p' e' hp hp'
    have hcons : (x :: l).forM f = (f x).bind fun _ => l.forM f := rfl
    rw [hcons]
    exact hboth.congr fun p e => by simp

/-- What is reported first is reported, where nothing is before itself and there is one thing to
report of each place. -/
theorem ReportsFirst.eq_error_iff (h : ReportsFirst lt bad check)
    (hasymm : ∀ p q, lt p q → ¬ lt q p) (hunique : ∀ p e e', bad p e → bad p e' → e = e') (e : ε) :
    check = .error e ↔ ∃ p, bad p e ∧ ∀ q e', bad q e' → q = p ∨ lt p q := by
  refine ⟨h.first_of_error e, ?_⟩
  rintro ⟨p, hp, hfirst⟩
  cases hcheck : check with
  | ok => exact absurd hp (h.none_of_ok hcheck p e)
  | error e' =>
    obtain ⟨q, hq, hfirst'⟩ := h.first_of_error e' hcheck
    -- The place that was found and the one that is given both come first, so they are one.
    have hsame : q = p := by
      rcases hfirst q e' hq with heq | hbefore
      · exact heq
      · rcases hfirst' p e hp with heq | hbefore'
        · exact heq.symm
        · exact absurd hbefore' (hasymm p q hbefore)
    subst hsame
    rw [hunique q e' e hq hp]

theorem pairwise_zipIdx (l : List α) : l.zipIdx.Pairwise fun x y => x.2 < y.2 := by
  have hplaces : (l.zipIdx.map Prod.snd).Pairwise (· < ·) := by
    rw [List.zipIdx_map_snd]
    exact List.pairwise_lt_range' 1
  exact List.pairwise_map.1 hplaces

theorem forM_zipIdx (f : α → Except ε Unit) (l : List α) :
    (l.zipIdx.forM fun x => f x.1) = l.forM f :=
  calc (l.zipIdx.forM fun x => f x.1)
    _ = (l.zipIdx.map Prod.fst).forM f := (List.forM_map (f := f)).symm
    _ = l.forM f := by rw [List.zipIdx_map_fst]

end ReportsFirst

namespace IdTable

def positions (table : IdTable) (b : Binding) : Positions :=
  match table with
  | .event => b.events
  | .object => b.objects

def ids (table : IdTable) (r : Response) : List String :=
  match table with
  | .event => r.eventIds
  | .object => r.objectIds

end IdTable

namespace Response

/-- What the checks look at: the counts of a result, and what a variable is bound to in one of its
situations. -/
inductive Place where
  | counts (node : Nat)
  | entry (node situation : Nat) (table : IdTable) (v : UInt32)

def Place.node : Place → Nat
  | .counts node => node
  | .entry node _ _ _ => node

inductive Place.Before : Place → Place → Prop
  | node {p q : Place} (h : p.node < q.node) : Before p q
  | counts {n s : Nat} {table : IdTable} {v : UInt32} : Before (.counts n) (.entry n s table v)
  | situation {n s s' : Nat} {table table' : IdTable} {v v' : UInt32} (h : s < s') :
    Before (.entry n s table v) (.entry n s' table' v')
  | table {n s : Nat} {v v' : UInt32} :
    Before (.entry n s .event v) (.entry n s .object v')
  | entry {n s : Nat} {table : IdTable} {v v' : UInt32} (h : v < v') :
    Before (.entry n s table v) (.entry n s table v')

/-- What is wrong at a place of a response, and what is to be reported of it. -/
inductive HasFault (r : Response) : Place → ResponseError → Prop
  | counts {n : Nat} {result : NodeResult} (hresult : r.results[n]? = some result)
    (h : result.total < result.violated) :
    HasFault r (.counts n) (.inconsistentCounts n result.violated.toNat result.total.toNat)
  | entry {n s : Nat} {table : IdTable} {v : UInt32} {result : NodeResult}
    {situation : Situation} {i : UInt64} (hresult : r.results[n]? = some result)
    (hsituation : result.situations[s]? = some situation)
    (hv : (table.positions situation.binding)[v]? = some i)
    (h : (table.ids r).length ≤ i.toNat) :
    HasFault r (.entry n s table v)
      (.bindingOutOfRange n table i.toNat (table.ids r).length)

variable {r : Response} {n s : Nat} {p q : Place} {e e' : ResponseError}

/-- No two places come before each other. -/
theorem Place.Before.asymm (h : p.Before q) : ¬ q.Before p := by
  intro h'
  cases h with
  | node h =>
    cases h' with
    | node h' => exact Nat.lt_asymm h h'
    | _ => exact Nat.lt_irrefl _ h
  | counts =>
    cases h' with
    | node h' => exact Nat.lt_irrefl _ h'
  | situation h =>
    cases h' with
    | node h' => exact Nat.lt_irrefl _ h'
    | situation h' => exact Nat.lt_asymm h h'
    | table => exact Nat.lt_irrefl _ h
    | entry h' => exact Nat.lt_irrefl _ h
  | table =>
    cases h' with
    | node h' => exact Nat.lt_irrefl _ h'
    | situation h' => exact Nat.lt_irrefl _ h'
  | entry h =>
    cases h' with
    | node h' => exact Nat.lt_irrefl _ h'
    | situation h' => exact Nat.lt_irrefl _ h'
    | entry h' => exact UInt32.lt_asymm h h'

/-- There is one thing to report of a place. -/
theorem HasFault.unique (h : r.HasFault p e) (h' : r.HasFault p e') : e = e' := by
  cases h with
  | counts hresult =>
    cases h' with
    | counts hresult' =>
      obtain rfl := Option.some.inj (hresult.symm.trans hresult')
      rfl
  | entry hresult hsituation hv =>
    cases h' with
    | entry hresult' hsituation' hv' =>
      obtain rfl := Option.some.inj (hresult.symm.trans hresult')
      obtain rfl := Option.some.inj (hsituation.symm.trans hsituation')
      obtain rfl := Option.some.inj (hv.symm.trans hv')
      rfl

def checkCounts (n : Nat) (result : NodeResult) : Except ResponseError Unit :=
  if result.total < result.violated then
    .error (.inconsistentCounts n result.violated.toNat result.total.toNat)
  else .ok ()

def checkBinding (r : Response) (n : Nat) (b : Binding) : Except ResponseError Unit :=
  (checkPositions n .event r.eventIds.length b.events).bind fun _ =>
    checkPositions n .object r.objectIds.length b.objects

theorem checkResult_eq (r : Response) (n : Nat) (result : NodeResult) :
    r.checkResult n result = (checkCounts n result).bind fun _ =>
      result.situations.forM fun situation => r.checkBinding n situation.binding := by
  unfold checkResult checkCounts
  by_cases hcounts : result.total < result.violated
  · rw [if_pos hcounts, if_pos hcounts]
    rfl
  · rw [if_neg hcounts, if_neg hcounts]
    rfl

def CountsFault (n : Nat) (result : NodeResult) (p : Place) (e : ResponseError) : Prop :=
  result.total < result.violated ∧ p = .counts n ∧
    e = .inconsistentCounts n result.violated.toNat result.total.toNat

def EntryFault (r : Response) (n s : Nat) (table : IdTable) (b : Binding) (p : Place)
    (e : ResponseError) : Prop :=
  ∃ v i, (table.positions b)[v]? = some i ∧ (table.ids r).length ≤ i.toNat ∧
    p = .entry n s table v ∧ e = .bindingOutOfRange n table i.toNat (table.ids r).length

def ResultFault (r : Response) (n : Nat) (result : NodeResult) (p : Place) (e : ResponseError) :
    Prop :=
  CountsFault n result p e ∨ ∃ x ∈ result.situations.zipIdx, ∃ table,
    r.EntryFault n x.2 table x.1.binding p e

theorem ResultFault.node_eq {result : NodeResult} (h : r.ResultFault n result p e) :
    p.node = n := by
  rcases h with ⟨-, rfl, -⟩ | ⟨x, -, table, v, i, -, -, rfl, -⟩
  · rfl
  · rfl

theorem hasFault_iff : r.HasFault p e ↔ ∃ x ∈ r.results.zipIdx, r.ResultFault x.2 x.1 p e := by
  constructor
  · intro h
    cases h with
    | @counts n result hresult h =>
      exact ⟨(result, n), List.mem_zipIdx_iff_getElem?.2 hresult, Or.inl ⟨h, rfl, rfl⟩⟩
    | @entry n s table v result situation i hresult hsituation hv h =>
      exact ⟨(result, n), List.mem_zipIdx_iff_getElem?.2 hresult, Or.inr ⟨(situation, s),
        List.mem_zipIdx_iff_getElem?.2 hsituation, table, v, i, hv, h, rfl, rfl⟩⟩
  · rintro ⟨⟨result, n⟩, hresult, ⟨h, rfl, rfl⟩ |
      ⟨⟨situation, s⟩, hsituation, table, v, i, hv, h, rfl, rfl⟩⟩
    · exact .counts (List.mem_zipIdx_iff_getElem?.1 hresult) h
    · exact .entry (List.mem_zipIdx_iff_getElem?.1 hresult)
        (List.mem_zipIdx_iff_getElem?.1 hsituation) hv h

theorem checkCounts_reportsFirst (n : Nat) (result : NodeResult) :
    ReportsFirst Place.Before (CountsFault n result) (checkCounts n result) := by
  unfold checkCounts
  by_cases hcounts : result.total < result.violated
  · rw [if_pos hcounts]
    refine ⟨fun h => (nomatch h), fun e h => ?_⟩
    obtain rfl := Except.error.inj h
    refine ⟨.counts n, ⟨hcounts, rfl, rfl⟩, ?_⟩
    rintro p' e' ⟨-, rfl, -⟩
    exact Or.inl rfl
  · rw [if_neg hcounts]
    exact .pass fun p e h => hcounts h.1

/-- The first entry of a table with a property is the one with the least key. -/
theorem find?_toList_eq_some {positions : Positions} {f : UInt32 × UInt64 → Bool} {v : UInt32}
    {i : UInt64} (h : positions.toList.find? f = some (v, i)) :
    positions[v]? = some i ∧ f (v, i) = true ∧
      ∀ w j, positions[w]? = some j → f (w, j) = true → w = v ∨ v < w := by
  obtain ⟨hmem, hf, hleast⟩ := Json.find?_toList_eq_some_iff.1 h
  refine ⟨Std.ExtTreeMap.mem_toList_iff_getElem?_eq_some.1 hmem, hf, fun w j hw hj => ?_⟩
  have hle := hleast (w, j) (Std.ExtTreeMap.mem_toList_iff_getElem?_eq_some.2 hw) hj
  exact (UInt32.le_iff_lt_or_eq.1 (Std.isLE_compare.1 hle)).symm.imp_left Eq.symm

/-- Of the positions that are out of range, the one of the least variable is reported. -/
theorem checkPositions_reportsFirst (r : Response) (n s : Nat) (table : IdTable) (b : Binding) :
    ReportsFirst Place.Before (r.EntryFault n s table b)
      (checkPositions n table (table.ids r).length (table.positions b)) := by
  unfold checkPositions
  split
  · rename_i v i hfound
    obtain ⟨hv, hi, hleast⟩ := find?_toList_eq_some hfound
    refine ⟨fun h => (nomatch h), fun e h => ?_⟩
    obtain rfl := Except.error.inj h
    refine ⟨.entry n s table v, ⟨v, i, hv, of_decide_eq_true hi, rfl, rfl⟩, ?_⟩
    rintro p' e' ⟨w, j, hw, hj, rfl, -⟩
    rcases hleast w j hw (decide_eq_true hj) with rfl | hlt
    · exact Or.inl rfl
    · exact Or.inr (.entry hlt)
  · rename_i hfound
    refine .pass ?_
    rintro p e ⟨v, i, hv, hi, -⟩
    have hmem : (v, i) ∈ (table.positions b).toList :=
      Std.ExtTreeMap.mem_toList_iff_getElem?_eq_some.2 hv
    exact List.find?_eq_none.1 hfound (v, i) hmem (decide_eq_true hi)

theorem checkBinding_reportsFirst (r : Response) (n s : Nat) (b : Binding) :
    ReportsFirst Place.Before (fun p e => ∃ table, r.EntryFault n s table b p e)
      (r.checkBinding n b) := by
  have hboth := (r.checkPositions_reportsFirst n s .event b).bind
    (r.checkPositions_reportsFirst n s .object b) ?_
  · refine hboth.congr fun p e => ⟨?_, ?_⟩
    · rintro (h | h)
      · exact ⟨.event, h⟩
      · exact ⟨.object, h⟩
    · rintro ⟨_ | _, h⟩
      · exact Or.inl h
      · exact Or.inr h
  · rintro p e p' e' ⟨v, i, -, -, rfl, -⟩ ⟨w, j, -, -, rfl, -⟩
    exact .table

/-- The check of one result reports its first fault: counts before situations. -/
theorem checkResult_reportsFirst (r : Response) (n : Nat) (result : NodeResult) :
    ReportsFirst Place.Before (r.ResultFault n result) (r.checkResult n result) := by
  have hlater : result.situations.zipIdx.Pairwise fun x y => ∀ p e p' e',
      (∃ table, r.EntryFault n x.2 table x.1.binding p e) →
      (∃ table, r.EntryFault n y.2 table y.1.binding p' e') → p.Before p' := by
    refine (pairwise_zipIdx result.situations).imp fun {x y} hxy => ?_
    rintro p e p' e' ⟨table, v, i, -, -, rfl, -⟩ ⟨table', v', i', -, -, rfl, -⟩
    exact .situation hxy
  have hsituations := ReportsFirst.forM
    (fun x _ => r.checkBinding_reportsFirst n x.2 x.1.binding) hlater
  rw [checkResult_eq, ← forM_zipIdx fun situation : Situation => r.checkBinding n situation.binding]
  refine (checkCounts_reportsFirst n result).bind hsituations ?_
  rintro p e p' e' ⟨-, rfl, -⟩ ⟨x, -, table, v, i, -, -, rfl, -⟩
  exact .counts

/-- The checks together report the first fault of the response. -/
theorem validate_reportsFirst (r : Response) :
    ReportsFirst Place.Before r.HasFault r.validate := by
  have hlater : r.results.zipIdx.Pairwise fun x y => ∀ p e p' e',
      r.ResultFault x.2 x.1 p e → r.ResultFault y.2 y.1 p' e' → p.Before p' := by
    refine (pairwise_zipIdx r.results).imp fun {x y} hxy p e p' e' h h' => ?_
    have hnodes : p.node < p'.node := by
      rw [h.node_eq, h'.node_eq]
      exact hxy
    exact .node hnodes
  have hresults := ReportsFirst.forM (fun x _ => r.checkResult_reportsFirst x.2 x.1) hlater
  exact hresults.congr fun p e => hasFault_iff.symm

theorem fits_iff {result : NodeResult} :
    r.Fits result ↔ result.violated ≤ result.total ∧
      ∀ situation ∈ result.situations, ∀ (table : IdTable) (v : UInt32) (i : UInt64),
        (table.positions situation.binding)[v]? = some i → i.toNat < (table.ids r).length := by
  constructor
  · intro h
    refine ⟨h.violated_le, fun situation hsituation table => ?_⟩
    cases table with
    | event => exact h.events situation hsituation
    | object => exact h.objects situation hsituation
  · rintro ⟨hle, hpositions⟩
    exact ⟨hle, fun s hs => hpositions s hs .event, fun s hs => hpositions s hs .object⟩

/-- A response passes exactly if no result counts more violations than situations and all variables
are bound to places in the tables. Otherwise what is wrong at the first faulty place is reported. -/
theorem validate_reports (r : Response) :
    (r.validate = .ok () ↔ ∀ result ∈ r.results, result.violated ≤ result.total ∧
      ∀ situation ∈ result.situations, ∀ (table : IdTable) (v : UInt32) (i : UInt64),
        (table.positions situation.binding)[v]? = some i → i.toNat < (table.ids r).length) ∧
      ∀ e, r.validate = .error e ↔
        ∃ p, r.HasFault p e ∧ ∀ q e', r.HasFault q e' → q = p ∨ p.Before q := by
  constructor
  · rw [validate_eq_ok_iff]
    exact forall₂_congr fun result _ => fits_iff
  · exact r.validate_reportsFirst.eq_error_iff (fun p q => Place.Before.asymm)
      fun p e e' => HasFault.unique

-- The objects of the first situation are looked at before the events of the second one and before
-- the counts of the second result, which are at fault as well.
example :
    let first : Situation := ⟨⟨.ofList [(3, 0)] compare, .ofList [(1, 0), (2, 7)] compare⟩, none⟩
    let second : Situation := ⟨⟨.ofList [(0, 5)] compare, ∅⟩, none⟩
    let r : Response := ⟨[⟨2, 0, [first, second]⟩, ⟨0, 1, []⟩], ["e1"], ["o1", "o2"]⟩
    r.validate = .error (.bindingOutOfRange 0 .object 7 2) := by
  rfl

end Response
end ConstraintGraph
