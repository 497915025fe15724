/-
# Critical sections on one processor

A call tests whether interrupts are masked, masks them if not, does its work one statement
after the other, and takes the mask back to what the test found.  An interrupt may come
before any statement while interrupts are not masked; it runs calls of its own, which may
be interrupted too, so that the calls in progress form a stack.

`Cpu.event` is one statement of the topmost call, or the start of a call.  `Disciplined` is
the invariant: only the topmost call can be inside its section.  `linearizes` is the
outcome: whatever comes in between, the calls act on the memory one after the other, in the
order in which they leave their sections.
-/
import Mathlib

namespace CriticalSection

variable {ι lo ρ μ ε : Type*}

/-! ## Calls -/

/-- The calls of one processor: `μ` is the memory that the sections protect, `ε` the memory
that they do not. -/
structure Routine (ι lo ρ μ ε : Type*) where
  /-- The local variables as the section begins. -/
  start : ι → lo
  /-- One statement of the section: the local variables behind it, or the value with which
  the section ends. -/
  step : lo → μ → (lo ⊕ ρ) × μ
  /-- What a call does behind its section. -/
  finish : ι → ρ → ε → ε

/-- How far a call has come. -/
inductive Activation (ι lo ρ : Type*)
  | fresh (c : ι)
  | tested (c : ι) (masked : Bool)
  | inside (c : ι) (masked : Bool) (l : lo)
  | closing (c : ι) (masked : Bool) (r : ρ)
  | closed (c : ι) (r : ρ)

/-- The memory, the mask, what the program last set the mask to, and the calls in progress,
the topmost first; the calls that have left their sections and the calls that have
returned, with their values. -/
structure Cpu (ι lo ρ μ ε : Type*) where
  mem : μ
  unguarded : ε
  masked : Bool
  base : Bool
  stack : List (Activation ι lo ρ)
  history : List (ι × ρ)
  returned : List (ι × ρ)

/-- Nothing is in progress. -/
def Cpu.idle (mem : μ) (unguarded : ε) : Cpu ι lo ρ μ ε := ⟨mem, unguarded, false, false, [], [], []⟩

variable (R : Routine ι lo ρ μ ε)

/-- The next statement of the topmost call. -/
def Cpu.advance (s : Cpu ι lo ρ μ ε) (rest : List (Activation ι lo ρ)) :
    Activation ι lo ρ → Cpu ι lo ρ μ ε
  | .fresh c => { s with stack := .tested c s.masked :: rest }
  | .tested c m =>
      { s with masked := if m then s.masked else true, stack := .inside c m (R.start c) :: rest }
  | .inside c m l =>
      match R.step l s.mem with
      | (.inl l', mem) => { s with mem := mem, stack := .inside c m l' :: rest }
      | (.inr r, mem) =>
          { s with mem := mem, stack := .closing c m r :: rest, history := s.history ++ [(c, r)] }
  | .closing c m r =>
      { s with masked := if m then s.masked else false, stack := .closed c r :: rest }
  | .closed c r =>
      { s with
        unguarded := R.finish c r s.unguarded, stack := rest
        returned := s.returned ++ [(c, r)] }

/-- What can happen next: the program makes a call or sets the mask, an interrupt makes a
call, or the topmost call goes on. -/
inductive Event (ι : Type*)
  | call (c : ι)
  | setMask (b : Bool)
  | interrupt (c : ι)
  | step
  deriving DecidableEq, Repr

/-- One event; `none` when it cannot happen. -/
def Cpu.event (s : Cpu ι lo ρ μ ε) : Event ι → Option (Cpu ι lo ρ μ ε)
  | .call c => if s.stack.isEmpty then some { s with stack := [.fresh c] } else none
  | .setMask b => if s.stack.isEmpty then some { s with masked := b, base := b } else none
  | .interrupt c => if s.masked then none else some { s with stack := .fresh c :: s.stack }
  | .step =>
      match s.stack with
      | [] => none
      | a :: rest => some (s.advance R rest a)

/-- A sequence of events. -/
def Cpu.run : Cpu ι lo ρ μ ε → List (Event ι) → Option (Cpu ι lo ρ μ ε)
  | s, [] => some s
  | s, e :: es => (s.event R e).bind fun s' => s'.run es

/-- A run goes on from where another one ends. -/
theorem Cpu.run_append (s : Cpu ι lo ρ μ ε) (es es' : List (Event ι)) :
    s.run R (es ++ es') = (s.run R es).bind fun s' => s'.run R es' := by
  induction es generalizing s with
  | nil => rfl
  | cons e es ih =>
      rw [List.cons_append, Cpu.run, Cpu.run, Option.bind_assoc]
      congr 1
      funext s'
      exact ih s'

/-! ## One call after the other -/

/-- Statements of a section that do not end it. -/
def Steps : lo × μ → lo × μ → Prop :=
  Relation.ReflTransGen fun x y => R.step x.1 x.2 = (.inl y.1, y.2)

/-- The section of a call, from its begin to its end. -/
def Exec (c : ι) (m : μ) (r : ρ) (m' : μ) : Prop :=
  ∃ x : lo × μ, Steps R (R.start c, m) x ∧ R.step x.1 x.2 = (.inr r, m')

/-- The sections of calls, one after the other. -/
inductive Serial (m : μ) : List (ι × ρ) → μ → Prop
  | nil : Serial m [] m
  | snoc {h : List (ι × ρ)} {m' m'' : μ} {c : ι} {r : ρ} (hs : Serial m h m')
      (hc : Exec R c m' r m'') : Serial m (h ++ [(c, r)]) m''

variable {R}

/-- A function that tells from any point of a section how it ends. -/
theorem Exec.eq_rest {rest : lo → μ → ρ × μ}
    (hstep : ∀ l m l' m', R.step l m = (.inl l', m') → rest l m = rest l' m')
    (hend : ∀ l m r m', R.step l m = (.inr r, m') → rest l m = (r, m'))
    {c : ι} {m m' : μ} {r : ρ} (h : Exec R c m r m') : rest (R.start c) m = (r, m') := by
  obtain ⟨x, hx, hr⟩ := h
  have hsame : ∀ y, Steps R (R.start c, m) y → rest (R.start c) m = rest y.1 y.2 := by
    intro y hy
    induction hy with
    | refl => rfl
    | tail _ hz ih => exact ih.trans (hstep _ _ _ _ hz)
  rw [hsame x hx]
  exact hend _ _ _ _ hr

/-! ## What an event does -/

section Events

variable {s s' : Cpu ι lo ρ μ ε} {rest : List (Activation ι lo ρ)} {c : ι} {m : Bool} {l l' : lo}
  {r : ρ} {mem : μ}

/-- A statement that is not the last one. -/
theorem advance_of_inl (h : R.step l s.mem = (.inl l', mem)) :
    s.advance R rest (.inside c m l) =
      { s with mem := mem, stack := .inside c m l' :: rest } := by
  unfold Cpu.advance
  dsimp only
  rw [h]

/-- The last statement. -/
theorem advance_of_inr (h : R.step l s.mem = (.inr r, mem)) :
    s.advance R rest (.inside c m l) =
      { s with
        mem := mem, stack := .closing c m r :: rest, history := s.history ++ [(c, r)] } := by
  unfold Cpu.advance
  dsimp only
  rw [h]

/-- The four kinds of events. -/
inductive Moves (R : Routine ι lo ρ μ ε) (s : Cpu ι lo ρ μ ε) : Cpu ι lo ρ μ ε → Prop
  | call (hidle : s.stack = []) (c : ι) : Moves R s { s with stack := [.fresh c] }
  | setMask (hidle : s.stack = []) (b : Bool) : Moves R s { s with masked := b, base := b }
  | interrupt (hm : s.masked = false) (c : ι) : Moves R s { s with stack := .fresh c :: s.stack }
  | advance {a : Activation ι lo ρ} {rest : List (Activation ι lo ρ)}
      (hstack : s.stack = a :: rest) : Moves R s (s.advance R rest a)

/-- Every event is one of the moves. -/
theorem event_moves {e : Event ι} (he : s.event R e = some s') : Moves R s s' := by
  cases e with
  | call c =>
      obtain ⟨hidle, heq⟩ := Option.ite_none_right_eq_some.1 he
      cases heq
      exact .call (List.isEmpty_iff.1 hidle) c
  | setMask b =>
      obtain ⟨hidle, heq⟩ := Option.ite_none_right_eq_some.1 he
      cases heq
      exact .setMask (List.isEmpty_iff.1 hidle) b
  | interrupt c =>
      obtain ⟨hm, heq⟩ := Option.ite_none_left_eq_some.1 he
      cases heq
      exact .interrupt (Bool.eq_false_of_not_eq_true hm) c
  | step =>
      unfold Cpu.event at he
      cases hstack : s.stack with
      | nil =>
          rw [hstack] at he
          cases he
      | cons a rest =>
          rw [hstack] at he
          cases he
          exact .advance hstack

end Events

/-! ## Only the topmost call is inside its section -/

/-- How far the call has come fits to the mask and to what the mask was as it started. -/
def Activation.Fits (masked entry : Bool) : Activation ι lo ρ → Prop
  | .fresh _ => masked = entry
  | .tested _ m => m = entry ∧ masked = entry
  | .inside _ m _ => m = entry ∧ masked = true
  | .closing _ m _ => m = entry ∧ masked = true
  | .closed _ _ => masked = entry

/-- The value of a call that has left its section. -/
def Activation.outcome : Activation ι lo ρ → Option (ι × ρ)
  | .fresh _ | .tested _ _ | .inside _ _ _ => none
  | .closing c _ r | .closed c r => some (c, r)

/-- The mask fits to the calls in progress. -/
def Layered (masked base : Bool) : List (Activation ι lo ρ) → Prop
  | [] => masked = base
  | a :: rest => a.Fits masked base ∧ (∀ b ∈ rest, b.Fits false base) ∧ (rest ≠ [] → base = false)

/-- The memory is what the calls that have left their sections made of it, and the topmost
call as far as it has come. -/
def Consistent (R : Routine ι lo ρ μ ε) (start mem : μ) (history : List (ι × ρ)) :
    List (Activation ι lo ρ) → Prop
  | [] => Serial R start history mem
  | .inside c _ l :: _ => ∃ mid, Serial R start history mid ∧ Steps R (R.start c, mid) (l, mem)
  | _ :: _ => Serial R start history mem

/-- The invariant of a run that starts with the memory `start`. -/
structure Disciplined (R : Routine ι lo ρ μ ε) (start : μ) (s : Cpu ι lo ρ μ ε) : Prop where
  layered : Layered s.masked s.base s.stack
  consistent : Consistent R start s.mem s.history s.stack
  returned : s.history.Perm (s.returned ++ s.stack.filterMap Activation.outcome)

section Discipline

variable {start : μ} {s s' : Cpu ι lo ρ μ ε}

/-- A processor without calls is disciplined. -/
theorem disciplined_idle (m : μ) (e : ε) :
    Disciplined R m (Cpu.idle m e : Cpu ι lo ρ μ ε) :=
  ⟨rfl, Serial.nil, List.Perm.refl _⟩

/-! ### Events keep it so -/

/-- While interrupts are not masked, no call in progress is inside its section. -/
theorem Activation.Fits.of_unmasked {a : Activation ι lo ρ} {entry : Bool}
    (h : a.Fits false entry) : entry = false ∧
      ∀ start mem history rest, Consistent R start mem history (a :: rest) →
        Serial R start history mem := by
  cases a with
  | fresh c => exact ⟨h.symm, fun _ _ _ _ hc => hc⟩
  | tested c m => exact ⟨h.2.symm, fun _ _ _ _ hc => hc⟩
  | inside c m l => exact absurd h.2 Bool.false_ne_true
  | closing c m r => exact absurd h.2 Bool.false_ne_true
  | closed c r => exact ⟨h.symm, fun _ _ _ _ hc => hc⟩

/-- A new call on top of those in progress. -/
theorem Disciplined.interrupt (h : Disciplined R start s) (hm : s.masked = false) (c : ι) :
    Disciplined R start { s with stack := .fresh c :: s.stack } := by
  obtain ⟨hlayered, hconsistent, hreturned⟩ := h
  refine ⟨?_, ?_, hreturned⟩
  · show s.masked = s.base ∧ _
    cases hstack : s.stack with
    | nil =>
        rw [hstack] at hlayered
        exact ⟨hlayered, fun b hb => absurd hb List.not_mem_nil, fun hne => absurd rfl hne⟩
    | cons a rest =>
        rw [hstack, hm] at hlayered
        obtain ⟨htop, hrest, -⟩ := hlayered
        have hbase : s.base = false := (htop.of_unmasked (R := R)).1
        refine ⟨hm.trans hbase.symm, ?_, fun _ => hbase⟩
        intro b hb
        rcases List.mem_cons.1 hb with rfl | hb
        · exact htop
        · exact hrest b hb
  · show Serial R start s.history s.mem
    cases hstack : s.stack with
    | nil =>
        rw [hstack] at hconsistent
        exact hconsistent
    | cons a rest =>
        rw [hstack, hm] at hlayered
        rw [hstack] at hconsistent
        exact hlayered.1.of_unmasked.2 _ _ _ _ hconsistent

/-- The topmost call goes on. -/
theorem Disciplined.advance (h : Disciplined R start s) {a : Activation ι lo ρ}
    {rest : List (Activation ι lo ρ)} (hstack : s.stack = a :: rest) :
    Disciplined R start (s.advance R rest a) := by
  obtain ⟨hlayered, hconsistent, hreturned⟩ := h
  rw [hstack] at hlayered hconsistent hreturned
  obtain ⟨htop, hrest, hbase⟩ := hlayered
  cases a with
  | fresh c => exact ⟨⟨⟨htop, htop⟩, hrest, hbase⟩, hconsistent, hreturned⟩
  | tested c m =>
      obtain ⟨hm, hmasked⟩ := htop
      refine ⟨⟨⟨hm, ?_⟩, hrest, hbase⟩, ⟨_, hconsistent, Relation.ReflTransGen.refl⟩, hreturned⟩
      show (if m then s.masked else true) = true
      cases hb : m with
      | false => rfl
      | true => rw [if_pos rfl, hmasked, ← hm, hb]
  | inside c m l =>
      obtain ⟨mid, hserial, hsteps⟩ := hconsistent
      cases hs : R.step l s.mem with
      | mk out mem =>
        cases out with
        | inl l' =>
            rw [advance_of_inl hs]
            exact ⟨⟨htop, hrest, hbase⟩, ⟨mid, hserial, hsteps.tail hs⟩, hreturned⟩
        | inr r =>
            rw [advance_of_inr hs]
            refine ⟨⟨htop, hrest, hbase⟩, hserial.snoc ⟨_, hsteps, hs⟩, ?_⟩
            -- the value is new in the history and on the stack
            exact (List.perm_append_singleton _ _).trans
              ((hreturned.cons (c, r)).trans List.perm_middle.symm)
  | closing c m r =>
      obtain ⟨hm, hmasked⟩ := htop
      refine ⟨⟨?_, hrest, hbase⟩, hconsistent, hreturned⟩
      show (if m then s.masked else false) = s.base
      rw [← hm]
      cases hb : m with
      | false => rfl
      | true => exact hmasked
  | closed c r =>
      refine ⟨?_, ?_, ?_⟩
      · show Layered s.masked s.base rest
        cases rest with
        | nil => exact htop
        | cons b rest =>
            have hfalse : s.base = false := hbase (List.cons_ne_nil _ _)
            have hmasked : s.masked = false := Eq.trans htop hfalse
            refine ⟨?_, fun b' hb' => hrest b' (List.mem_cons_of_mem _ hb'), fun _ => hfalse⟩
            rw [hmasked]
            exact hrest b List.mem_cons_self
      · show Consistent R start s.mem s.history rest
        cases rest with
        | nil => exact hconsistent
        | cons b rest =>
            have hb := hrest b List.mem_cons_self
            cases b with
            | inside c' m' l' => exact absurd hb.2 Bool.false_ne_true
            | fresh | tested | closing | closed => exact hconsistent
      · show s.history.Perm (s.returned ++ [(c, r)] ++ rest.filterMap Activation.outcome)
        rw [List.append_assoc]
        exact hreturned

/-- Every event keeps it so. -/
theorem Disciplined.event (h : Disciplined R start s) {e : Event ι}
    (he : s.event R e = some s') : Disciplined R start s' := by
  cases event_moves he with
  | call hidle c =>
      obtain ⟨hlayered, hconsistent, hreturned⟩ := h
      rw [hidle] at hlayered hconsistent hreturned
      exact ⟨⟨hlayered, fun b hb => absurd hb List.not_mem_nil, fun hne => absurd rfl hne⟩,
        hconsistent, hreturned⟩
  | setMask hidle b =>
      refine ⟨?_, h.consistent, h.returned⟩
      show Layered b b s.stack
      rw [hidle]
      rfl
  | interrupt hm c => exact h.interrupt hm c
  | advance hstack => exact h.advance hstack

/-- **So does every run**. -/
theorem Disciplined.run {es : List (Event ι)} (h : Disciplined R start s)
    (hrun : s.run R es = some s') : Disciplined R start s' := by
  induction es generalizing s with
  | nil =>
      cases hrun
      exact h
  | cons e es ih =>
      obtain ⟨s₁, he, hrest⟩ := Option.bind_eq_some_iff.1 hrun
      exact ih (h.event he) hrest

/-! ### The history -/

/-- What has left its section stays first. -/
theorem history_prefix_event {e : Event ι} (he : s.event R e = some s') :
    s.history <+: s'.history := by
  cases event_moves he with
  | call => exact List.prefix_rfl
  | setMask => exact List.prefix_rfl
  | interrupt => exact List.prefix_rfl
  | @advance a rest hstack =>
      cases a with
      | inside c m l =>
          cases hs : R.step l s.mem with
          | mk out mem =>
            cases out with
            | inl l' =>
                rw [advance_of_inl hs]
            | inr r =>
                rw [advance_of_inr hs]
                exact List.prefix_append _ _
      | fresh | tested | closing | closed => exact List.prefix_rfl

/-- The history only grows. -/
theorem history_prefix_run {es : List (Event ι)} (hrun : s.run R es = some s') :
    s.history <+: s'.history := by
  induction es generalizing s with
  | nil =>
      cases hrun
      exact List.prefix_rfl
  | cons e es ih =>
      obtain ⟨s₁, he, hrest⟩ := Option.bind_eq_some_iff.1 hrun
      exact (history_prefix_event he).trans (ih hrest)

end Discipline

/-! ## Every call returns -/

section Returns

variable {s : Cpu ι lo ρ μ ε}

/-- A sequence of the statements of the calls in progress, with no new call. -/
theorem run_advance {a : Activation ι lo ρ} {rest : List (Activation ι lo ρ)}
    (hstack : s.stack = a :: rest) (n : ℕ) :
    s.run R (List.replicate (n + 1) .step) =
      (s.advance R rest a).run R (List.replicate n .step) := by
  have he : s.event R .step = some (s.advance R rest a) := by
    unfold Cpu.event
    rw [hstack]
  rw [List.replicate_succ, Cpu.run, he, Option.bind_some]

/-- Left alone, the topmost call returns. -/
theorem topmost_returns {size : lo → ℕ}
    (hsize : ∀ l m l' m', R.step l m = (.inl l', m') → size l' < size l)
    {a : Activation ι lo ρ} {rest : List (Activation ι lo ρ)} (hstack : s.stack = a :: rest) :
    ∃ n s', s.run R (List.replicate n .step) = some s' ∧ s'.stack = rest := by
  have hclosed : ∀ (s : Cpu ι lo ρ μ ε) c r, s.stack = .closed c r :: rest →
      ∃ n s', s.run R (List.replicate n .step) = some s' ∧ s'.stack = rest :=
    fun s c r h => ⟨1, _, run_advance h 0, rfl⟩
  have hclosing : ∀ (s : Cpu ι lo ρ μ ε) c m r, s.stack = .closing c m r :: rest →
      ∃ n s', s.run R (List.replicate n .step) = some s' ∧ s'.stack = rest := by
    intro s c m r h
    obtain ⟨n, s', hrun, hs'⟩ := hclosed (s.advance R rest (.closing c m r)) c r rfl
    exact ⟨n + 1, s', (run_advance h n).trans hrun, hs'⟩
  -- in the section by induction on what bounds its statements
  have hinside : ∀ k, ∀ (s : Cpu ι lo ρ μ ε) c m l, size l < k → s.stack = .inside c m l :: rest →
      ∃ n s', s.run R (List.replicate n .step) = some s' ∧ s'.stack = rest := by
    intro k
    induction k with
    | zero => exact fun s c m l hl => absurd hl (Nat.not_lt_zero _)
    | succ k ih =>
        intro s c m l hl h
        cases hs : R.step l s.mem with
        | mk out mem =>
          cases out with
          | inl l' =>
              have hless := hsize _ _ _ _ hs
              obtain ⟨n, s', hrun, hs'⟩ := ih (s.advance R rest (.inside c m l)) c m l' (by omega)
                (by rw [advance_of_inl hs])
              exact ⟨n + 1, s', (run_advance h n).trans hrun, hs'⟩
          | inr r =>
              obtain ⟨n, s', hrun, hs'⟩ := hclosing (s.advance R rest (.inside c m l)) c m r
                (by rw [advance_of_inr hs])
              exact ⟨n + 1, s', (run_advance h n).trans hrun, hs'⟩
  have htested : ∀ (s : Cpu ι lo ρ μ ε) c m, s.stack = .tested c m :: rest →
      ∃ n s', s.run R (List.replicate n .step) = some s' ∧ s'.stack = rest := by
    intro s c m h
    obtain ⟨n, s', hrun, hs'⟩ :=
      hinside _ (s.advance R rest (.tested c m)) c m _ (Nat.lt_succ_self _) rfl
    exact ⟨n + 1, s', (run_advance h n).trans hrun, hs'⟩
  cases a with
  | fresh c =>
      obtain ⟨n, s', hrun, hs'⟩ := htested (s.advance R rest (.fresh c)) c _ rfl
      exact ⟨n + 1, s', (run_advance hstack n).trans hrun, hs'⟩
  | tested c m => exact htested s c m hstack
  | inside c m l => exact hinside _ s c m l (Nat.lt_succ_self _) hstack
  | closing c m r => exact hclosing s c m r hstack
  | closed c r => exact hclosed s c r hstack

/-- **Every call returns** when no further interrupt comes: what bounds the statements of a
section bounds the whole stack. -/
theorem drains {size : lo → ℕ}
    (hsize : ∀ l m l' m', R.step l m = (.inl l', m') → size l' < size l)
    (s : Cpu ι lo ρ μ ε) :
    ∃ n s', s.run R (List.replicate n .step) = some s' ∧ s'.stack = [] := by
  induction hstack : s.stack generalizing s with
  | nil => exact ⟨0, s, rfl, hstack⟩
  | cons a rest ih =>
      obtain ⟨n, s₁, hrun, hs₁⟩ := topmost_returns hsize hstack
      obtain ⟨k, s₂, hrun', hs₂⟩ := ih s₁ hs₁
      refine ⟨n + k, s₂, ?_, hs₂⟩
      rw [List.replicate_add, Cpu.run_append, hrun]
      exact hrun'

end Returns

/-! ## Where the calls come from -/

section Calls

variable {s s' : Cpu ι lo ρ μ ε} {P : ι → Prop}

/-- The call in progress. -/
def Activation.call : Activation ι lo ρ → ι
  | .fresh c | .tested c _ | .inside c _ _ | .closing c _ _ | .closed c _ => c

/-- The call that an event starts. -/
def Event.starts : Event ι → Option ι
  | .call c | .interrupt c => some c
  | .setMask _ | .step => none

/-- Every call in progress and every call of the history is as `P` says. -/
def Cpu.Only (P : ι → Prop) (s : Cpu ι lo ρ μ ε) : Prop :=
  (∀ a ∈ s.stack, P a.call) ∧ ∀ x ∈ s.history, P x.1

/-- A step starts no call. -/
theorem Cpu.Only.advance (h : s.Only P) {a : Activation ι lo ρ}
    {rest : List (Activation ι lo ρ)} (hstack : s.stack = a :: rest) :
    (s.advance R rest a).Only P := by
  obtain ⟨hcalls, hhist⟩ := h
  rw [hstack] at hcalls
  obtain ⟨ha, hrest⟩ := List.forall_mem_cons.1 hcalls
  cases a with
  | inside c m l =>
      cases hs : R.step l s.mem with
      | mk out mem =>
        cases out with
        | inl l' =>
            rw [advance_of_inl hs]
            exact ⟨List.forall_mem_cons.2 ⟨ha, hrest⟩, hhist⟩
        | inr r =>
            rw [advance_of_inr hs]
            refine ⟨List.forall_mem_cons.2 ⟨ha, hrest⟩, fun x hx => ?_⟩
            rcases List.mem_append.1 hx with hx | hx
            · exact hhist x hx
            · rw [List.mem_singleton.1 hx]
              exact ha
  | closed c r => exact ⟨hrest, hhist⟩
  | fresh | tested | closing => exact ⟨List.forall_mem_cons.2 ⟨ha, hrest⟩, hhist⟩

theorem Cpu.Only.event (h : s.Only P) {e : Event ι} (hP : ∀ c, e.starts = some c → P c)
    (he : s.event R e = some s') : s'.Only P := by
  cases e with
  | call c =>
      obtain ⟨-, heq⟩ := Option.ite_none_right_eq_some.1 he
      cases heq
      exact ⟨List.forall_mem_singleton.2 (hP c rfl), h.2⟩
  | setMask b =>
      obtain ⟨-, heq⟩ := Option.ite_none_right_eq_some.1 he
      cases heq
      exact h
  | interrupt c =>
      obtain ⟨-, heq⟩ := Option.ite_none_left_eq_some.1 he
      cases heq
      exact ⟨List.forall_mem_cons.2 ⟨hP c rfl, h.1⟩, h.2⟩
  | step =>
      unfold Cpu.event at he
      cases hstack : s.stack with
      | nil =>
          rw [hstack] at he
          cases he
      | cons a rest =>
          rw [hstack] at he
          cases he
          exact h.advance hstack

/-- The calls of the history are calls that events have started. -/
theorem Cpu.Only.run {es : List (Event ι)} (h : s.Only P)
    (hP : ∀ e ∈ es, ∀ c, e.starts = some c → P c) (hrun : s.run R es = some s') : s'.Only P := by
  induction es generalizing s with
  | nil =>
      cases hrun
      exact h
  | cons e es ih =>
      obtain ⟨s₁, he, hrest⟩ := Option.bind_eq_some_iff.1 hrun
      exact ih (h.event (hP e List.mem_cons_self) he)
        (fun e' he' => hP e' (List.mem_cons_of_mem _ he')) hrest

/-- A processor without calls has none that is excluded. -/
theorem only_idle (m : μ) (e : ε) : (Cpu.idle m e : Cpu ι lo ρ μ ε).Only P :=
  ⟨fun _ h => absurd h List.not_mem_nil, fun _ h => absurd h List.not_mem_nil⟩

end Calls

/-! ## Linearization -/

/-- **Critical sections linearize.**  In every run from an idle processor, however deep the
interrupts nest: while no call is in progress, the memory is what the calls made of it one
after the other, in the order of the history, these are the calls that have returned, and
the mask is as the program set it. -/
theorem linearizes {m : μ} {e : ε} {es : List (Event ι)} {s : Cpu ι lo ρ μ ε}
    (hrun : (Cpu.idle m e).run R es = some s) (hidle : s.stack = []) :
    Serial R m s.history s.mem ∧ s.history.Perm s.returned ∧ s.masked = s.base := by
  obtain ⟨hlayered, hconsistent, hreturned⟩ := (disciplined_idle m e).run hrun
  rw [hidle] at hlayered hconsistent hreturned
  rw [List.filterMap_nil, List.append_nil] at hreturned
  exact ⟨hconsistent, hreturned, hlayered⟩

/-- A call that has returned is in the history, so that it comes there before every call
that starts later. -/
theorem returned_subset_history {m : μ} {e : ε} {es : List (Event ι)} {s : Cpu ι lo ρ μ ε}
    (hrun : (Cpu.idle m e).run R es = some s) : s.returned ⊆ s.history := by
  intro x hx
  exact ((disciplined_idle m e).run hrun).returned.mem_iff.2 (List.mem_append_left _ hx)

end CriticalSection
