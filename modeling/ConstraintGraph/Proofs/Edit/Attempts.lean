import ConstraintGraph.Edit.Apply

/-!
Changes that may be refused. One that is refused leaves everything as it is. Two of them can be
interchanged where both have the same verdict and the same effect whichever comes first, and from
the elements of a list and the parts of a whole this carries over to the list and the whole.
-/

namespace ConstraintGraph

section Attempts

variable {α β ε : Type}

def attempt (f : α → Except ε α) (x : α) : α :=
  match f x with
  | .ok y => y
  | .error _ => x

def verdict (r : Except ε α) : Except ε Unit := r.map fun _ => ()

/-- Both changes have the same verdict and the same effect on `x` whichever of them comes first. -/
structure Interchange (f f' : α → Except ε α) (x : α) : Prop where
  verdict_left : verdict (f (attempt f' x)) = verdict (f x)
  verdict_right : verdict (f' (attempt f x)) = verdict (f' x)
  attempt_comm : attempt f' (attempt f x) = attempt f (attempt f' x)

variable {f f' : α → Except ε α} {x y : α} {r : Except ε α} {e : ε}

theorem attempt_of_ok (h : f x = .ok y) : attempt f x = y := by
  rw [attempt, h]

theorem attempt_of_error (h : f x = .error e) : attempt f x = x := by
  rw [attempt, h]

theorem verdict_eq_error_iff : verdict r = .error e ↔ r = .error e := by
  cases r <;> simp [verdict, Except.map]

theorem verdict_eq_ok_iff : verdict r = .ok () ↔ ∃ y, r = .ok y := by
  cases r <;> simp [verdict, Except.map]

theorem verdict_map (g : α → β) : verdict (r.map g) = verdict r := by
  cases r <;> rfl

theorem verdict_map_eq_map {γ : Type} (g : α → β) (k : α → γ) :
    verdict (r.map g) = verdict (r.map k) := by
  rw [verdict_map, verdict_map]

/-- What every accepted change keeps is kept, accepted or refused. -/
theorem attempt_keeps {φ : α → β} (h : ∀ y, f x = .ok y → φ y = φ x) : φ (attempt f x) = φ x := by
  cases hx : f x with
  | ok y => rw [attempt_of_ok hx, h y hx]
  | error e => rw [attempt_of_error hx]

theorem Interchange.symm (h : Interchange f f' x) : Interchange f' f x :=
  ⟨h.verdict_right, h.verdict_left, h.attempt_comm.symm⟩

/-- Where the verdicts are the same in both orders, it is enough to compare the effects of changes
that are accepted. -/
theorem Interchange.of_accepted (hleft : verdict (f (attempt f' x)) = verdict (f x))
    (hright : verdict (f' (attempt f x)) = verdict (f' x))
    (hcomm : ∀ y y' z z', f x = .ok y → f' x = .ok y' → f' y = .ok z → f y' = .ok z' → z = z') :
    Interchange f f' x := by
  refine ⟨hleft, hright, ?_⟩
  cases hx : f x with
  | error e =>
    -- A change that is refused is refused after the other one too.
    have hrefused : f (attempt f' x) = .error e := by
      rw [← verdict_eq_error_iff, hleft, hx]
      rfl
    rw [attempt_of_error hx, attempt_of_error hrefused]
  | ok y =>
    cases hx' : f' x with
    | error e =>
      have hrefused : f' (attempt f x) = .error e := by
        rw [← verdict_eq_error_iff, hright, hx']
        rfl
      rw [attempt_of_error hx', attempt_of_error hrefused]
    | ok y' =>
      rw [hx, attempt_of_ok hx'] at hleft
      rw [hx', attempt_of_ok hx] at hright
      obtain ⟨z, hz⟩ := verdict_eq_ok_iff.1 hright
      obtain ⟨z', hz'⟩ := verdict_eq_ok_iff.1 hleft
      have hsame : z = z' := hcomm y y' z z' hx hx' hz hz'
      rw [attempt_of_ok hx, attempt_of_ok hx', attempt_of_ok hz, attempt_of_ok hz', hsame]

/-- A change of a part is tried on the whole as it is tried on the part. -/
theorem attempt_whole {F : β → Except ε β} {ι : α → β} (hF : F (ι x) = (f x).map ι) :
    attempt F (ι x) = ι (attempt f x) := by
  cases hx : f x with
  | ok y =>
    rw [hx] at hF
    rw [attempt_of_ok hx, attempt_of_ok hF]
  | error e =>
    rw [hx] at hF
    rw [attempt_of_error hx, attempt_of_error hF]

/-- Changes of a part that can be interchanged can be so as changes of the whole. -/
theorem Interchange.whole {F F' : β → Except ε β} {ι : α → β} (hF : ∀ x, F (ι x) = (f x).map ι)
    (hF' : ∀ x, F' (ι x) = (f' x).map ι) (h : Interchange f f' x) : Interchange F F' (ι x) := by
  constructor
  · rw [attempt_whole (hF' x), hF, hF, verdict_map, verdict_map, h.verdict_left]
  · rw [attempt_whole (hF x), hF', hF', verdict_map, verdict_map, h.verdict_right]
  · rw [attempt_whole (hF x), attempt_whole (hF' x), attempt_whole (hF' _), attempt_whole (hF _),
      h.attempt_comm]

/-- Changes of two parts can be interchanged. -/
theorem Interchange.of_parts {γ : Type} {F F' : γ → Except ε γ} {k : β → Except ε β}
    {κ : α → β → γ} (hF : ∀ a b, F (κ a b) = (f a).map (κ · b))
    (hF' : ∀ a b, F' (κ a b) = (k b).map (κ a)) (a : α) (b : β) : Interchange F F' (κ a b) := by
  have hleft : ∀ a b, attempt F (κ a b) = κ (attempt f a) b := fun a b =>
    attempt_whole (ι := (κ · b)) (hF a b)
  have hright : ∀ a b, attempt F' (κ a b) = κ a (attempt k b) := fun a b =>
    attempt_whole (hF' a b)
  constructor
  · rw [hright, hF, hF, verdict_map, verdict_map]
  · rw [hleft, hF', hF', verdict_map, verdict_map]
  · rw [hleft, hright, hright, hleft]

end Attempts

section UpdateFirst

variable {α ε : Type} {p p' : α → Bool} {absent absent' : ε} {f f' : α → Except ε α}

theorem attempt_updateFirst_cons (x : α) (xs : List α) :
    attempt (updateFirst p absent f) (x :: xs) =
      if p x then attempt f x :: xs else x :: attempt (updateFirst p absent f) xs := by
  unfold attempt
  rw [updateFirst]
  by_cases hp : p x = true
  · rw [if_pos hp, if_pos hp]
    cases f x <;> rfl
  · rw [if_neg hp, if_neg hp]
    cases updateFirst p absent f xs <;> rfl

theorem verdict_updateFirst_cons (x : α) (xs : List α) :
    verdict (updateFirst p absent f (x :: xs)) =
      if p x then verdict (f x) else verdict (updateFirst p absent f xs) := by
  rw [updateFirst]
  split
  · exact verdict_map _
  · exact verdict_map _

/-- An update for one element is refused or accepted as before when an update for another element,
or of something else in the same one, has been tried. -/
theorem verdict_updateFirst_congr (hp : ∀ x, p (attempt f' x) = p x)
    (h : ∀ x, p x = true → p' x = true → verdict (f (attempt f' x)) = verdict (f x))
    (xs : List α) :
    verdict (updateFirst p absent f (attempt (updateFirst p' absent' f') xs)) =
      verdict (updateFirst p absent f xs) := by
  induction xs with
  | nil => rfl
  | cons x xs ih =>
    rw [attempt_updateFirst_cons]
    by_cases hx' : p' x = true
    · -- The element that the first change is made at may be the one that the second looks at.
      rw [if_pos hx', verdict_updateFirst_cons, verdict_updateFirst_cons, hp]
      by_cases hx : p x = true
      · rw [if_pos hx, if_pos hx, h x hx hx']
      · rw [if_neg hx, if_neg hx]
    · rw [if_neg hx', verdict_updateFirst_cons, verdict_updateFirst_cons, ih]

/-- Two changes of first elements commute on a list if they commute on an element that both may
meet. -/
theorem attempt_updateFirst_comm (hp : ∀ x, p (attempt f' x) = p x)
    (hp' : ∀ x, p' (attempt f x) = p' x)
    (h : ∀ x, p x = true → p' x = true → attempt f' (attempt f x) = attempt f (attempt f' x))
    (xs : List α) :
    attempt (updateFirst p' absent' f') (attempt (updateFirst p absent f) xs) =
      attempt (updateFirst p absent f) (attempt (updateFirst p' absent' f') xs) := by
  induction xs with
  | nil => rfl
  | cons x xs ih =>
    rw [attempt_updateFirst_cons, attempt_updateFirst_cons]
    -- Either update stops at the head, both do, or neither.
    by_cases hx : p x = true
    · rw [if_pos hx, attempt_updateFirst_cons, hp']
      by_cases hx' : p' x = true
      · rw [if_pos hx', if_pos hx', attempt_updateFirst_cons, if_pos ((hp x).trans hx), h x hx hx']
      · rw [if_neg hx', if_neg hx', attempt_updateFirst_cons, if_pos hx]
    · rw [if_neg hx, attempt_updateFirst_cons]
      by_cases hx' : p' x = true
      · have hskip : ¬ p (attempt f' x) = true := fun hx'' => hx ((hp x).symm.trans hx'')
        rw [if_pos hx', if_pos hx', attempt_updateFirst_cons, if_neg hskip]
      · rw [if_neg hx', if_neg hx', attempt_updateFirst_cons, if_neg hx, ih]

/-- Changes at the first elements of two kinds can be interchanged if they can at an element of both
kinds. -/
theorem Interchange.updateFirst (hp : ∀ x, p (attempt f' x) = p x)
    (hp' : ∀ x, p' (attempt f x) = p' x)
    (h : ∀ x, p x = true → p' x = true → Interchange f f' x) (xs : List α) :
    Interchange (updateFirst p absent f) (updateFirst p' absent' f') xs :=
  ⟨verdict_updateFirst_congr hp (fun x hx hx' => (h x hx hx').verdict_left) xs,
    verdict_updateFirst_congr hp' (fun x hx' hx => (h x hx hx').verdict_right) xs,
    attempt_updateFirst_comm hp hp' (fun x hx hx' => (h x hx hx').attempt_comm) xs⟩

end UpdateFirst

end ConstraintGraph
