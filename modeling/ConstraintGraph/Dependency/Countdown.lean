import ConstraintGraph.Dependency.Basic

namespace ConstraintGraph.Dependencies

variable {α : Type} [DecidableEq α]

structure Countdown (α : Type) where
  waiting : List (α × Nat)
  ready : List α

def Countdown.count (s : Countdown α) (v : α) : Nat := (s.waiting.lookup v).getD 0

def Countdown.decrement (s : Countdown α) (v : α) : Countdown α :=
  -- A vertex whose count is zero has been released, so this takes one off indeed.
  let waiting := s.waiting.map fun (w, n) => if w = v then (w, n - 1) else (w, n)
  if s.count v - 1 = 0 then ⟨waiting, s.ready ++ [v]⟩ else ⟨waiting, s.ready⟩

def release (d : Dependencies α) (s : Countdown α) : Countdown α :=
  match s.ready with
  | [] => s
  | v :: ready => (d.children v).foldl Countdown.decrement ⟨s.waiting, ready⟩

def startCountdown (d : Dependencies α) : Countdown α where
  waiting := d.vertices.map fun v => (v, (d.parents v).length)
  ready := d.vertices.filter fun v => (d.parents v).length = 0

def releaseAll (d : Dependencies α) : Nat → Countdown α → Countdown α
  | 0, s => s
  | fuel + 1, s => releaseAll d fuel (d.release s)

def countdown (d : Dependencies α) : Countdown α :=
  -- No vertex has a second turn.
  d.releaseAll d.vertices.length d.startCountdown

def blocked (d : Dependencies α) : List α :=
  let last := d.countdown
  d.vertices.filter fun v => 0 < last.count v

end ConstraintGraph.Dependencies
