/-
# Traces

A trace is a row of recorded transitions of a machine, with the numbers that they take from the
input source and the entries that they leave. The machine and the numbers fix the trace up to
its length:

* `Machine.Trace.comparable` : if the numbers of one trace begin those of the other, then so do
  the entries, and traces of one length end in one machine.
-/
import Marie.Proofs.Advance
import Mathlib.Data.List.Infix

namespace Marie

/-- One of the two lists begins the other one. -/
def Comparable {α : Type} (xs ys : List α) : Prop :=
  xs <+: ys ∨ ys <+: xs

/-- Comparable lists that are not empty begin with one element, and go on comparably. -/
theorem comparable_cons_iff {α : Type} {x y : α} {xs ys : List α} :
    Comparable (x :: xs) (y :: ys) ↔ x = y ∧ Comparable xs ys := by
  rw [Comparable, Comparable, List.cons_prefix_cons, List.cons_prefix_cons]
  constructor
  · rintro (⟨hxy, h⟩ | ⟨hyx, h⟩)
    · exact ⟨hxy, .inl h⟩
    · exact ⟨hyx.symm, .inr h⟩
  · rintro ⟨rfl, h | h⟩
    · exact .inl ⟨rfl, h⟩
    · exact .inr ⟨rfl, h⟩

namespace Machine

/-- A row of transitions: the machine before it, the numbers taken, the entries left, oldest
first, and the machine after it. -/
inductive Trace : Machine → List Int → List LogEntry → Machine → Prop
  | nil (m : Machine) : Trace m [] [] m
  | cons {m m₁ m' : Machine} {v : Option Int} {e : LogEntry} {vs : List Int}
      {es : List LogEntry} (hadv : m.Advance v e m₁) (htrace : Trace m₁ vs es m') :
      Trace m (v.toList ++ vs) (e :: es) m'

namespace Trace

variable {m m₁ m₂ m' : Machine} {vs ws : List Int} {es fs : List LogEntry}

/-- Traces in a row are a trace. -/
theorem append (h : Trace m vs es m₁) (h' : Trace m₁ ws fs m') :
    Trace m (vs ++ ws) (es ++ fs) m' := by
  induction h with
  | nil m => exact h'
  | cons hadv _ ih =>
      rw [List.append_assoc, List.cons_append]
      exact .cons hadv (ih h')

/-- One more transition at the end of a trace. -/
theorem snoc (h : Trace m vs es m₁) {v : Option Int} {e : LogEntry} (hadv : m₁.Advance v e m') :
    Trace m (vs ++ v.toList) (es ++ [e]) m' := by
  have hlast := Trace.cons hadv (.nil m')
  rw [List.append_nil] at hlast
  exact h.append hlast

/-- If the numbers of one trace begin those of another from the same machine, then so do the
entries, and traces of one length end in one machine. -/
theorem comparable (h₁ : Trace m vs es m₁) (h₂ : Trace m ws fs m₂) (hnumbers : Comparable vs ws) :
    Comparable es fs ∧ (es.length = fs.length → m₁ = m₂) := by
  induction h₁ generalizing ws fs with
  | nil m =>
      refine ⟨.inl (List.nil_prefix), fun hlength => ?_⟩
      cases h₂ with
      | nil => rfl
      | cons _ _ => simp at hlength
  | @cons m n m₁ v e vs es hadv htrace ih =>
      cases h₂ with
      | nil => exact ⟨.inr (List.nil_prefix), fun hlength => by simp at hlength⟩
      | @cons _ n' _ v' e' ws fs hadv' htrace' =>
          -- both transitions take a number or neither does, and then it is the same one
          have hv : v = v' ∧ Comparable vs ws := by
            have hsome : v.isSome = true ↔ v'.isSome = true :=
              hadv.isSome_iff.trans hadv'.isSome_iff.symm
            cases v with
            | none =>
                cases v' with
                | none => exact ⟨rfl, hnumbers⟩
                | some x => simp at hsome
            | some x =>
                cases v' with
                | none => simp at hsome
                | some y =>
                    obtain ⟨hxy, hrest⟩ := comparable_cons_iff.mp hnumbers
                    exact ⟨congrArg some hxy, hrest⟩
          obtain ⟨rfl, hrest⟩ := hv
          obtain ⟨rfl, rfl⟩ := hadv.deterministic hadv'
          obtain ⟨hentries, hend⟩ := ih htrace' hrest
          refine ⟨comparable_cons_iff.mpr ⟨rfl, hentries⟩, fun hlength => hend ?_⟩
          simpa using hlength

end Trace

/-- A transition from a machine that has been settled is one from the machine before. -/
theorem Advance.of_settlesTo {m m₁ m' : Machine} {v : Option Int} {e : LogEntry}
    (h : m₁.Advance v e m') (hsettles : m.SettlesTo m₁) : m.Advance v e m' := by
  rcases hsettles with rfl | rfl
  · exact h
  · exact Advance.settle_iff.mp h

end Machine

end Marie
