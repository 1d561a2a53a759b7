import ConstraintGraph.Proofs.Edit.Attempts

namespace ConstraintGraph.Graph

variable {g g' last : Graph} {c : Command} {commands xs ys : List Command}

/-- The commands are accepted one after the other and lead from the first graph to the second. -/
inductive Accepts : Graph → List Command → Graph → Prop
  | nil (g : Graph) : Accepts g [] g
  | cons {g g' last : Graph} {c : Command} {commands : List Command} (first : g.apply c = .ok g')
    (rest : Accepts g' commands last) : Accepts g (c :: commands) last

theorem accepts_cons_iff :
    g.Accepts (c :: commands) last ↔ ∃ g', g.apply c = .ok g' ∧ g'.Accepts commands last := by
  constructor
  · intro h
    cases h with
    | cons first rest => exact ⟨_, first, rest⟩
  · rintro ⟨g', first, rest⟩
    exact .cons first rest

/-- Where a replay starts to count shows in the index alone. -/
theorem replayFrom_eq (g : Graph) (commands : List Command) (n : Nat) :
    g.replayFrom n commands = (g.replay commands).mapError fun e => ⟨n + e.index, e.error⟩ := by
  -- Both sides count on from where the induction hypothesis starts.
  unfold replay
  induction commands generalizing g n with
  | nil => rfl
  | cons c commands ih =>
    rw [replayFrom, replayFrom]
    cases g.apply c with
    | error e => rfl
    | ok g' =>
      simp only
      rw [ih g' (n + 1), ih g' (0 + 1)]
      cases g'.replayFrom 0 commands with
      | ok last => rfl
      | error e =>
        have hcount : n + 1 + e.index = n + (0 + 1 + e.index) := by omega
        exact congrArg (fun index => Except.error (ReplayError.mk index e.error)) hcount

/-- The second part of a replay counts on from the first. -/
theorem replayFrom_append (g : Graph) (xs ys : List Command) (n : Nat) :
    g.replayFrom n (xs ++ ys) =
      (g.replayFrom n xs).bind fun g' => g'.replayFrom (n + xs.length) ys := by
  induction xs generalizing g n with
  | nil => rfl
  | cons c xs ih =>
    rw [List.cons_append, replayFrom, replayFrom]
    cases g.apply c with
    | error e => rfl
    | ok g' =>
      have hcount : n + (c :: xs).length = n + 1 + xs.length := by
        rw [List.length_cons]
        omega
      simp only
      rw [ih g' (n + 1), hcount]

/-- A replay of two lists is that of the first and then that of the second, whose index counts on.
-/
theorem replay_append_eq (g : Graph) (xs ys : List Command) :
    g.replay (xs ++ ys) = (g.replay xs).bind fun g' =>
      (g'.replay ys).mapError fun e => ⟨xs.length + e.index, e.error⟩ :=
  calc g.replay (xs ++ ys)
    _ = (g.replay xs).bind fun g' => g'.replayFrom (0 + xs.length) ys := g.replayFrom_append xs ys 0
    _ = (g.replay xs).bind fun g' => g'.replayFrom xs.length ys := by rw [Nat.zero_add]
    _ = _ := by simp only [replayFrom_eq _ _ xs.length]

/-- Replays that succeed one after the other make up one that does. -/
theorem replay_append (hxs : g.replay xs = .ok g') (hys : g'.replay ys = .ok last) :
    g.replay (xs ++ ys) = .ok last := by
  rw [replay_append_eq, hxs, Except.bind, hys]
  rfl

/-- A replay is refused at its first command or, one place later, where the rest is. -/
theorem replay_cons_eq_error_iff {i : Nat} {e : EditError} :
    g.replay (c :: commands) = .error ⟨i, e⟩ ↔ i = 0 ∧ g.apply c = .error e ∨
      ∃ j g', i = j + 1 ∧ g.apply c = .ok g' ∧ g'.replay commands = .error ⟨j, e⟩ := by
  rw [replay, replayFrom]
  cases g.apply c with
  | error e' =>
    simp only [Except.error.injEq, ReplayError.mk.injEq, reduceCtorEq, false_and, and_false,
      exists_false, or_false, eq_comm (a := i)]
  | ok g' =>
    cases hreplay : g'.replay commands with
    | ok last =>
      have hrest : g'.replayFrom (0 + 1) commands = .ok last := by
        rw [replayFrom_eq, hreplay]
        rfl
      simp [hrest, hreplay]
    | error refused =>
      obtain ⟨index, e'⟩ := refused
      -- The index counts from the first command of the whole replay.
      have hrest : g'.replayFrom (0 + 1) commands = .error ⟨0 + 1 + index, e'⟩ := by
        rw [replayFrom_eq, hreplay]
        rfl
      simp only [hrest, Except.error.injEq, ReplayError.mk.injEq, reduceCtorEq, and_false,
        false_or, Except.ok.injEq]
      constructor
      · rintro ⟨rfl, rfl⟩
        exact ⟨index, g', by omega, rfl, hreplay⟩
      · rintro ⟨j, _, rfl, rfl, hj⟩
        obtain ⟨rfl, rfl⟩ := ReplayError.mk.inj (Except.error.inj (hreplay.symm.trans hj))
        exact ⟨by omega, rfl⟩

/-- A replay is refused at the first command that is refused where those before it lead to. -/
theorem replay_eq_error_iff {i : Nat} {e : EditError} :
    g.replay commands = .error ⟨i, e⟩ ↔
      ∃ g' c, g.Accepts (commands.take i) g' ∧ commands[i]? = some c ∧ g'.apply c = .error e := by
  induction commands generalizing g i with
  | nil =>
    constructor
    · intro h
      cases h
    · rintro ⟨g', c, -, hc, -⟩
      cases hc
  | cons c commands ih =>
    rw [replay_cons_eq_error_iff]
    constructor
    · rintro (⟨rfl, hrefused⟩ | ⟨j, g', rfl, hfirst, hrest⟩)
      · exact ⟨g, c, .nil g, rfl, hrefused⟩
      · obtain ⟨g'', c', haccepts, hc', hrefused⟩ := ih.1 hrest
        exact ⟨g'', c', .cons hfirst haccepts, hc', hrefused⟩
    · rintro ⟨g'', c', haccepts, hc', hrefused⟩
      cases i with
      | zero =>
        cases haccepts
        obtain rfl : c = c' := Option.some.inj hc'
        exact Or.inl ⟨rfl, hrefused⟩
      | succ j =>
        obtain ⟨g', hfirst, hrest⟩ := accepts_cons_iff.1 haccepts
        exact Or.inr ⟨j, g', rfl, hfirst, ih.2 ⟨g'', c', hrest, hc', hrefused⟩⟩

/-- Two lists on end are accepted exactly if they are one after the other. -/
theorem replay_append_eq_ok_iff :
    g.replay (xs ++ ys) = .ok last ↔ ∃ g', g.replay xs = .ok g' ∧ g'.replay ys = .ok last := by
  constructor
  · intro h
    rw [replay_append_eq] at h
    cases hxs : g.replay xs with
    | error e =>
      rw [hxs] at h
      cases h
    | ok g' =>
      rw [hxs] at h
      cases hys : g'.replay ys with
      | error e =>
        rw [Except.bind, hys] at h
        cases h
      | ok last' =>
        rw [Except.bind, hys] at h
        exact ⟨g', rfl, hys.trans h⟩
  · rintro ⟨g', hxs, hys⟩
    exact replay_append hxs hys

/-- The replay of two lists on end succeeds where that of the first does and that of the second
after it, and leads to the same graph. It is refused where the first one is, or else where the
second one is, counted from the beginning, and leaves the graph from before both. A replay is
refused at a command that is not accepted after those before it were, one after the other. -/
theorem replay_in_parts (g : Graph) (xs ys : List Command) :
    (∀ last, g.replay (xs ++ ys) = .ok last ↔
        ∃ g', g.replay xs = .ok g' ∧ g'.replay ys = .ok last) ∧
      (∀ e, g.replay xs = .error e →
        g.replay (xs ++ ys) = .error e ∧ attempt (·.replay (xs ++ ys)) g = g) ∧
      (∀ g' i e, g.replay xs = .ok g' → g'.replay ys = .error ⟨i, e⟩ →
        g.replay (xs ++ ys) = .error ⟨xs.length + i, e⟩ ∧
          attempt (·.replay (xs ++ ys)) g = g) ∧
      ∀ i e, g.replay xs = .error ⟨i, e⟩ ↔
        ∃ g' c, g.Accepts (xs.take i) g' ∧ xs[i]? = some c ∧ g'.apply c = .error e := by
  refine ⟨fun last => replay_append_eq_ok_iff, ?_, ?_, fun i e => replay_eq_error_iff⟩
  · intro e hxs
    have hrefused : g.replay (xs ++ ys) = .error e := by
      rw [replay_append_eq, hxs]
      rfl
    exact ⟨hrefused, attempt_of_error hrefused⟩
  · intro g' i e hxs hys
    have hrefused : g.replay (xs ++ ys) = .error ⟨xs.length + i, e⟩ := by
      rw [replay_append_eq, hxs, Except.bind, hys]
      rfl
    exact ⟨hrefused, attempt_of_error hrefused⟩

/-- The second list links two nodes that the first one adds, and then adds one of them again. -/
theorem replay_in_parts_duplicate :
    let pay : Node := ⟨"pay", .event EventNode.empty⟩
    let ship : Node := ⟨"ship", .event EventNode.empty⟩
    let xs : List Command := [.addNode pay, .addNode ship]
    let ys : List Command := [.addEdge (.link "pay" "ship"), .addNode pay]
    Graph.empty.replay xs = .ok ⟨[pay, ship], []⟩ ∧
      replay ⟨[pay, ship], []⟩ ys = .error ⟨1, .duplicateNode "pay"⟩ ∧
      Graph.empty.replay (xs ++ ys) = .error ⟨3, .duplicateNode "pay"⟩ ∧
      attempt (·.replay (xs ++ ys)) Graph.empty = Graph.empty ∧
      ∃ g', Graph.empty.Accepts (xs ++ ys.take 1) g' ∧
        g'.apply (.addNode pay) = .error (.duplicateNode "pay") := by
  intro pay ship xs ys
  have hxs : Graph.empty.replay xs = .ok ⟨[pay, ship], []⟩ := rfl
  have hys : replay ⟨[pay, ship], []⟩ ys = .error ⟨1, .duplicateNode "pay"⟩ := rfl
  obtain ⟨hboth, hkept⟩ := (replay_in_parts Graph.empty xs ys).2.2.1 _ _ _ hxs hys
  obtain ⟨g', c, haccepts, hc, hrefused⟩ :=
    ((replay_in_parts Graph.empty (xs ++ ys) []).2.2.2 _ _).1 hboth
  obtain rfl : Command.addNode pay = c := Option.some.inj hc
  exact ⟨hxs, hys, hboth, hkept, g', haccepts, hrefused⟩

end ConstraintGraph.Graph
