/-
# Properties along a trace

A trace is a list of events, oldest first.  `Along S h t` says that every event of
`t` satisfies `S` with respect to the events before it, when the events `h` came
before `t`.  It composes over appended traces, so that a loop or a run is treated
one piece at a time; `along_iff` gives it back as a statement about the positions
of the trace.
-/
import Mathlib

namespace Trace

variable {ε : Type*}

/-- Every event of the second list stands in `S` to what came before it. -/
def Along (S : List ε → ε → Prop) : List ε → List ε → Prop
  | _, [] => True
  | h, e :: t => S h e ∧ Along S (h ++ [e]) t

variable {S : List ε → ε → Prop}

theorem along_append {h t t' : List ε} :
    Along S h (t ++ t') ↔ Along S h t ∧ Along S (h ++ t) t' := by
  induction t generalizing h with
  | nil => simp [Along]
  | cons e t ih =>
      simp only [List.cons_append, Along, ih, List.append_assoc, List.nil_append]
      exact and_assoc.symm

/-- Events that satisfy `S` after any history. -/
theorem along_of_forall {t : List ε} (ht : ∀ e ∈ t, ∀ h, S h e) (h : List ε) : Along S h t := by
  induction t generalizing h with
  | nil => trivial
  | cons e t ih =>
      exact ⟨ht e List.mem_cons_self h, ih (fun e' he' => ht e' (List.mem_cons_of_mem _ he')) _⟩

theorem along_iff {h t : List ε} :
    Along S h t ↔ ∀ pre e post, t = pre ++ e :: post → S (h ++ pre) e := by
  constructor
  · intro hal pre e post heq
    rw [heq, along_append] at hal
    exact hal.2.1
  · intro hall
    induction t generalizing h with
    | nil => trivial
    | cons e t ih =>
        refine ⟨?_, ih ?_⟩
        · have hhead := hall [] e t rfl
          rwa [List.append_nil] at hhead
        · intro pre e' post heq
          rw [List.append_assoc, List.singleton_append]
          apply hall (e :: pre) e' post
          rw [heq, List.cons_append]

end Trace
