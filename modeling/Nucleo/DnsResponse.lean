/-
# What reading a DNS response examines, and whether it ends

`parse_name` follows compression pointers wherever they lead: it returns if and only if the
name stays inside and leads into no cycle (`parseName_returns_iff`).  No function knows the length of the
message: the bytes examined lie inside it if and only if its questions, names and records
do (`Inside`), and a message that is not made up that way is never rejected.

`answersLoop_cases` says how the loop over the answers can end; the two main results,
`processResponse_halts_iff` and `readsInside_iff`, are read off it.
-/
import Nucleo.DnsMessage

namespace Nucleo

namespace Dns

open Guarded Walk Relation

section Names

variable {v : Response} {p q : ℕ}

/-! ## Names -/

theorem follow_rightUnique (v : Response) : Relator.RightUnique (Follow v) :=
  fun _ _ _ h h' => h.unique h'

theorem Follow.readable (h : Follow v p q) : Readable v p := by
  refine ⟨h.lt_limit, fun hb => ?_⟩
  cases h with
  | text _ hb' => exact absurd hb' (not_str_of_pointer hb)
  | pointer hp _ => exact hp

/-- A position before a cycle has a successor. -/
theorem cyclic_readable (h : Cyclic (Follow v) p) : Readable v p := by
  obtain ⟨q, hq, -⟩ := h.step
  exact hq.readable

/-- Every byte that the walk from `p` examines lies before the limit. -/
def NameInside (v : Response) (p : ℕ) : Prop := ∀ q, ReflTransGen (Follow v) p q → Readable v q

/-- Everything after a position before a cycle is before a cycle. -/
theorem Cyclic.reach (h : Cyclic (Follow v) p) (hpq : ReflTransGen (Follow v) p q) :
    Cyclic (Follow v) q := by
  induction hpq with
  | refl => exact h
  | tail _ hstep ih =>
      obtain ⟨r, hr, hcyc⟩ := Cyclic.step ih
      rw [hstep.unique hr]
      exact hcyc

theorem cyclic_nameInside (h : Cyclic (Follow v) p) : NameInside v p :=
  fun _ hq => cyclic_readable (Cyclic.reach h hq)

/-- A name that ends leads into no cycle. -/
theorem NameEnds.not_cyclic (h : NameEnds v p) : ¬ Cyclic (Follow v) p := by
  obtain ⟨e, hreach, _, hend⟩ := h
  intro hcyc
  obtain ⟨r, hr, -⟩ := (Cyclic.reach hcyc hreach).step
  exact hr.not_end hend

/-- A name that ends lies inside. -/
theorem NameEnds.nameInside (h : NameEnds v p) : NameInside v p := by
  obtain ⟨e, hreach, hlt, hend⟩ := h
  -- the end has no successor
  have hstop : ∀ r, ¬ Follow v e r := fun r hr => hr.not_end hend
  have hread : Readable v e := ⟨hlt, fun hb => absurd hend (not_end_of_pointer hb)⟩
  intro q hq
  rcases ReflTransGen.total_of_right_unique (follow_rightUnique v) hreach hq with heq | hqe
  · rcases ReflTransGen.cases_head heq with rfl | ⟨r, hr, -⟩
    · exact hread
    · exact absurd hr (hstop r)
  · rcases ReflTransGen.cases_head hqe with rfl | ⟨r, hr, -⟩
    · exact hread
    · exact hr.readable

theorem NameInside.textInside (h : NameInside v p) (hq : ReflTransGen (Follow v) p q) :
    TextInside v q := by
  intro hb
  have hnext := h _ (hq.tail (.text (h q hq).1 hb))
  exact Nat.le_of_lt hnext.1

variable {store : Bool} {fuel : ℕ}

/-! ### The walk of the code -/

/-- `parse_name` never returns from before a cycle. -/
theorem parseName_of_cyclic (fuel : ℕ) (store : Bool) (h : Cyclic (Follow v) p) :
    parseName v fuel store p = .error .running := by
  refine loop_of_cyclic NameState.label ?_ fuel h
  intro s q hq hcyc
  rcases parseNameRound_cases v store s with ⟨-, hend, -⟩ | ⟨s', hs', -, hround⟩ | ⟨hnot, -⟩
  · exact absurd hend hq.not_end
  · exact ⟨s', hround, hs'.unique hq⟩
  · -- the next label is before the cycle too, so the text lies inside
    refine absurd ⟨hq.readable, fun _ hb => ?_⟩ hnot
    rw [(Follow.text hq.lt_limit hb).unique hq]
    exact Nat.le_of_lt (cyclic_readable hcyc).1

theorem parseName_ne_outside (h : NameInside v p) :
    parseName v fuel store p ≠ .error .outside := by
  refine loop_ne_error (fun s => ReflTransGen (Follow v) p s.label) (by decide) ?_ ?_ fuel .refl
  · intro s hs hc
    exact (outside_of_parseNameRound hc).2 ⟨h _ hs, fun _ => h.textInside hs⟩
  · intro s s' hs hc
    exact hs.tail (follow_of_parseNameRound hc).1

theorem parseName_ne_nullDeref : parseName v fuel store p ≠ .error .nullDeref := by
  refine loop_ne_error (fun _ => True) (by decide) ?_ (fun _ _ _ _ => trivial) fuel trivial
  intro s _ hc
  exact DnsStop.noConfusion (outside_of_parseNameRound hc).1

/-- A name that leads into no cycle is read in as many rounds as there are bytes, each of
which adds at most 64 to its length. -/
theorem parseName_of_not_cyclic (fuel : ℕ) (store : Bool) (hcyc : ¬ Cyclic (Follow v) p)
    (hfuel : v.limit < fuel) :
    (∃ r k, parseName v fuel store p = .ok r ∧ NameEnds v p ∧ k ≤ v.limit ∧
        ∃ n : BitVec 16, n.toNat ≤ 64 * k ∧ r.1 = n + 1) ∨
      parseName v fuel store p = .error .outside := by
  have hloop : ∃ k s, k ≤ (Finset.range v.limit).card ∧
      (ReflTransGen (Follow v) p s.label ∧ s.strLen.toNat ≤ 64 * k) ∧
      ((∃ r, parseNameRound v store s = .ok (.inr r) ∧ parseName v fuel store p = .ok r) ∨
        ∃ e, parseNameRound v store s = .error e ∧ parseName v fuel store p = .error e) := by
    apply loop_cases (b := ⟨p, 0, true, []⟩) (R := Follow v) (S := Finset.range v.limit)
      (J := fun k s => ReflTransGen (Follow v) p s.label ∧ s.strLen.toNat ≤ 64 * k)
      NameState.label (fun s s' hr => (follow_of_parseNameRound hr).1)
      (fun a b hab => Finset.mem_range.2 hab.lt_limit) ?_ hcyc ?_ ⟨.refl, Nat.le_refl 0⟩
    · rintro k s s' ⟨hreach, hlen⟩ hround
      obtain ⟨hs, hadd⟩ := follow_of_parseNameRound hround
      exact ⟨hreach.tail hs, by omega⟩
    · rw [Finset.card_range]
      exact hfuel
  rw [Finset.card_range] at hloop
  obtain ⟨k, s, hk, ⟨hreach, hlen⟩, ⟨r, hround, hret⟩ | ⟨e, hround, hret⟩⟩ := hloop
  · obtain ⟨hlt, hend, hr⟩ := end_of_parseNameRound hround
    exact .inl ⟨r, k, hret, ⟨_, hreach, hlt, hend⟩, hk, _, hlen, hr⟩
  · rw [(outside_of_parseNameRound hround).1] at hret
    exact .inr hret

/-- A name that `parse_name` has read ends, and in a message that fits the buffer its length
does not wrap to 0. -/
theorem nameEnds_of_parseName {r : BitVec 16 × List Byte} (h : parseName v fuel store p = .ok r) :
    NameEnds v p ∧ (v.limit ≤ dnsMsgLen → r.1 ≠ 0) := by
  have hcyc : ¬ Cyclic (Follow v) p := by
    intro hc
    rw [parseName_of_cyclic fuel store hc] at h
    cases h
  have hmore := loop_mono (v.limit + 1) h
  rcases parseName_of_not_cyclic (fuel + (v.limit + 1)) store hcyc (by omega)
    with ⟨r', k, hr', hends, hk, n, hn, hadd⟩ | hout
  · have hsame : r = r' := Except.ok.inj (hmore.symm.trans hr')
    refine ⟨hends, fun hlim => ?_⟩
    unfold dnsMsgLen at hlim
    rw [hsame, hadd]
    bv_omega
  · have hbad := hmore.symm.trans hout
    cases hbad

/-- How `parse_name` can end. -/
theorem parseName_cases (v : Response) (fuel : ℕ) (store : Bool) (p : ℕ) :
    (∃ r, parseName v fuel store p = .ok r ∧ NameEnds v p ∧ (v.limit ≤ dnsMsgLen → r.1 ≠ 0)) ∨
      (parseName v fuel store p = .error .running ∧ (Cyclic (Follow v) p ∨ fuel ≤ v.limit)) ∨
      (parseName v fuel store p = .error .outside ∧ ¬ NameInside v p) := by
  cases h : parseName v fuel store p with
  | ok r =>
      obtain ⟨hends, hne⟩ := nameEnds_of_parseName h
      exact .inl ⟨r, rfl, hends, hne⟩
  | error e =>
      cases e with
      | running =>
          refine .inr (.inl ⟨rfl, ?_⟩)
          by_contra hc
          rw [not_or] at hc
          rcases parseName_of_not_cyclic fuel store hc.1 (Nat.not_le.1 hc.2)
            with ⟨r, k, hr, -⟩ | hr
          · rw [hr] at h
            cases h
          · rw [hr] at h
            cases h
      | outside => exact .inr (.inr ⟨rfl, fun hin => parseName_ne_outside hin h⟩)
      | nullDeref => exact absurd h parseName_ne_nullDeref

/-- How `new_name` can end on a message that fits the buffer. -/
theorem newName_cases (hlim : v.limit ≤ dnsMsgLen) (fuel p : ℕ) :
    (∃ name len, newName v fuel p = .ok (some name, len) ∧ NameEnds v p) ∨
      (newName v fuel p = .error .running ∧ (Cyclic (Follow v) p ∨ fuel ≤ v.limit)) ∨
      (newName v fuel p = .error .outside ∧ ¬ NameInside v p) := by
  unfold newName getNameSize
  rcases parseName_cases v fuel false p with ⟨r, hr, hends, hne⟩ | ⟨hr, hcyc⟩ | ⟨hr, hin⟩
  · rw [hr]
    dsimp only [bind, Except.bind, pure, Except.pure]
    rw [if_neg (hne hlim)]
    -- the second pass over the name
    rcases parseName_cases v fuel true p with ⟨r', hr', -, -⟩ | ⟨hr', hcyc⟩ | ⟨hr', hin⟩
    · rw [hr']
      exact .inl ⟨_, _, rfl, hends⟩
    · rw [hr']
      exact .inr (.inl ⟨rfl, hcyc⟩)
    · exact absurd hends.nameInside hin
  · rw [hr]
    exact .inr (.inl ⟨rfl, hcyc⟩)
  · rw [hr]
    exact .inr (.inr ⟨rfl, hin⟩)

end Names

/-! ## Labels and questions -/

section Labels

variable {v : Response} {p q : ℕ}

theorem LabelsEnd.unique {q' : ℕ} (h : LabelsEnd v p q) (h' : LabelsEnd v p q') : q = q' := by
  induction h with
  | zero hp hb =>
      cases h' with
      | zero _ _ => rfl
      | pointer _ hb' => exact absurd hb (not_end_of_pointer hb')
      | text _ hb' _ => exact absurd hb' (not_str_of_end hb)
  | pointer hp hb =>
      cases h' with
      | zero _ hb' => exact absurd hb' (not_end_of_pointer hb)
      | pointer _ _ => rfl
      | text _ hb' _ => exact absurd hb' (not_str_of_pointer hb)
  | text hp hb _ ih =>
      cases h' with
      | zero _ hb' => exact absurd hb (not_str_of_end hb')
      | pointer _ hb' => exact absurd hb (not_str_of_pointer hb')
      | text _ _ hrest => exact ih hrest

/-- The labels of a name that ends are written up to some position. -/
theorem NameEnds.labelsEnd (h : NameEnds v p) : ∃ q, LabelsEnd v p q := by
  obtain ⟨e, hreach, hlt, hend⟩ := h
  induction hreach using ReflTransGen.head_induction_on with
  | refl => exact ⟨_, .zero hlt hend⟩
  | head hstep _ ih =>
      cases hstep with
      | text hp hb =>
          obtain ⟨q, hq⟩ := ih
          exact ⟨q, .text hp hb hq⟩
      | pointer hp hb => exact ⟨_, .pointer (by omega) hb⟩

/-- What a round of `skip_labels` does. -/
theorem skipLabelsRound_cases (v : Response) (p : ℕ) :
    (p < v.limit ∧ labelIsstr (v.mem p) = true ∧
        skipLabelsRound v p = .ok (.inl (p + (getLabelLen (v.mem p) + 1)))) ∨
      (∃ q, LabelsEnd v p q ∧ skipLabelsRound v p = .ok (.inr (some q))) ∨
      (v.limit ≤ p ∧ skipLabelsRound v p = .error .outside) := by
  unfold skipLabelsRound
  by_cases hp : p < v.limit
  · rw [cell_of_lt hp]
    dsimp only [bind, Except.bind]
    rcases label_cases (v.mem p) with ⟨hb, hend, -⟩ | ⟨-, hb, -⟩ | ⟨hptr, hend, hb⟩
    · rw [if_neg (by rw [hend]; exact Bool.false_ne_true), if_pos hb]
      exact .inr (.inl ⟨_, .pointer hp hb, rfl⟩)
    · rw [if_pos hb]
      exact .inr (.inl ⟨_, .zero hp hb, rfl⟩)
    · rw [if_neg (by rw [hend]; exact Bool.false_ne_true),
        if_neg (by rw [hptr]; exact Bool.false_ne_true), if_pos hb]
      exact .inl ⟨hp, hb, rfl⟩
  · rw [cell_of_le (Nat.not_lt.1 hp)]
    exact .inr (.inr ⟨Nat.not_lt.1 hp, rfl⟩)

/-- How `skip_labels` can end; it moves forward, so it never goes round. -/
theorem skipLabels_cases (v : Response) (fuel p : ℕ) :
    (∃ q, LabelsEnd v p q ∧ skipLabels v fuel p = .ok (some q)) ∨
      (skipLabels v fuel p = .error .running ∧ fuel ≤ v.limit - p) ∨
      (skipLabels v fuel p = .error .outside ∧ ∀ q, ¬ LabelsEnd v p q) := by
  unfold skipLabels
  induction fuel generalizing p with
  | zero => exact .inr (.inl ⟨rfl, Nat.zero_le _⟩)
  | succ fuel ih =>
      rcases skipLabelsRound_cases v p with ⟨hp, hb, hr⟩ | ⟨q, hq, hr⟩ | ⟨hp, hr⟩
      · rw [loop_succ_of_inl hr]
        rcases ih (p + (getLabelLen (v.mem p) + 1)) with ⟨q, hq, hloop⟩ | ⟨hloop, hle⟩ | ⟨hloop, hno⟩
        · exact .inl ⟨q, .text hp hb hq, hloop⟩
        · exact .inr (.inl ⟨hloop, by omega⟩)
        · refine .inr (.inr ⟨hloop, fun q hq => ?_⟩)
          cases hq with
          | zero _ hb' => exact absurd hb (not_str_of_end hb')
          | pointer _ hb' => exact absurd hb (not_str_of_pointer hb')
          | text _ _ hrest => exact hno q hrest
      · rw [loop_succ_of_inr hr]
        exact .inl ⟨q, hq, rfl⟩
      · rw [loop_succ_of_error hr]
        refine .inr (.inr ⟨rfl, fun q hq => ?_⟩)
        cases hq with
        | zero hlt _ => omega
        | pointer hlt _ => omega
        | text hlt _ _ => omega

theorem QuestionsEnd.unique {n q' : ℕ} (h : QuestionsEnd v n p q) (h' : QuestionsEnd v n p q') :
    q = q' := by
  induction h with
  | nil =>
      cases h'
      rfl
  | cons hq _ ih =>
      cases h' with
      | cons hq' hrest =>
          rw [hq.unique hq'] at ih
          exact ih hrest

/-- How the loop of `skip_questions` can end. -/
theorem skipQuestionsLoop_cases (v : Response) (fuel n p : ℕ) :
    (∃ q, QuestionsEnd v n p q ∧ skipQuestionsLoop v fuel n p = .ok (some q)) ∨
      (skipQuestionsLoop v fuel n p = .error .running ∧ fuel ≤ v.limit) ∨
      (skipQuestionsLoop v fuel n p = .error .outside ∧ ∀ q, ¬ QuestionsEnd v n p q) := by
  induction n generalizing p with
  | zero => exact .inl ⟨p, .nil, rfl⟩
  | succ n ih =>
      unfold skipQuestionsLoop
      rcases skipLabels_cases v fuel p with ⟨q, hq, hr⟩ | ⟨hr, hle⟩ | ⟨hr, hno⟩
      · rw [hr]
        rcases ih (q + 4) with ⟨r, hrest, hloop⟩ | hloop | ⟨hloop, hno⟩
        · exact .inl ⟨r, .cons hq hrest, hloop⟩
        · exact .inr (.inl hloop)
        · refine .inr (.inr ⟨hloop, fun r hr' => ?_⟩)
          cases hr' with
          | cons hq' hrest =>
              rw [← hq.unique hq'] at hrest
              exact hno r hrest
      · rw [hr]
        exact .inr (.inl ⟨rfl, by omega⟩)
      · rw [hr]
        refine .inr (.inr ⟨rfl, fun r hr' => ?_⟩)
        cases hr' with
        | cons hq' _ => exact hno _ hq'

end Labels

/-! ## Answers -/

section Answers

variable {v : Response} {p q : ℕ}

theorem AnswerAt.unique {k : ℕ} (h : AnswerAt v k p) (h' : AnswerAt v k q) : p = q := by
  induction h generalizing q with
  | first hp =>
      cases h' with
      | first hp' => exact hp.unique hp'
  | next _ _ hq _ ih =>
      cases h' with
      | next hp' _ hq' _ =>
          rw [← ih hp'] at hq'
          rw [hq.unique hq']

/-- An answer that is reached has one before it, down to the first. -/
theorem AnswerAt.exists_first {k p : ℕ} (h : AnswerAt v k p) : ∃ q, AnswerAt v 0 q := by
  induction h with
  | first hp => exact ⟨_, .first hp⟩
  | next _ _ _ _ ih => exact ih

/-- An answer before another one has a name that ends and a record that can be read. -/
theorem AnswerAt.before {j k : ℕ} (h : AnswerAt v k p) (hj : AnswerAt v j q) (hlt : j < k) :
    NameEnds v q ∧ ∀ r, LabelsEnd v q r → RecordInside v r := by
  induction h with
  | first _ => omega
  | @next k p r hp hname hr hrec ih =>
      by_cases hjk : j = k
      · subst hjk
        rw [hj.unique hp]
        refine ⟨hname, fun r' hr' => ?_⟩
        rw [hr'.unique hr]
        exact hrec
      · exact ih (by omega)

/-- What is read of the answer at `p` lies before the limit. -/
def AnswerInside (v : Response) (p : ℕ) : Prop :=
  NameInside v p ∧ (NameEnds v p → ∀ q, LabelsEnd v p q → RecordInside v q)

theorem readRecord_cases (v : Response) (name : List Byte) (q : ℕ) :
    (RecordInside v q ∧ ∃ new, readRecord v name q = .ok (new, recordEnd v q)) ∨
      (¬ RecordInside v q ∧ readRecord v name q = .error .outside) := by
  unfold readRecord
  by_cases hfixed : q + offsetRdata ≤ v.limit
  swap
  · refine .inr ⟨fun h => hfixed h.1, ?_⟩
    unfold offsetRdata at hfixed
    -- one of the three fields is not inside
    by_cases htype : q + offsetType + 2 ≤ v.limit
    swap
    · rw [dnsResponseGet16_of_lt (by omega)]
      rfl
    by_cases hclass : q + offsetClass + 2 ≤ v.limit
    swap
    · rw [dnsResponseGet16_of_le htype, dnsResponseGet16_of_lt (p := q + offsetClass) (by omega)]
      rfl
    · rw [dnsResponseGet16_of_le htype, dnsResponseGet16_of_le hclass,
        dnsResponseGet16_of_lt (p := q + offsetRdlength) (by unfold offsetRdlength; omega)]
      rfl
  · have hle := hfixed
    unfold offsetRdata at hle
    rw [dnsResponseGet16_of_le (p := q + offsetType) (by unfold offsetType; omega),
      dnsResponseGet16_of_le (p := q + offsetClass) (by unfold offsetClass; omega),
      dnsResponseGet16_of_le (p := q + offsetRdlength) (by unfold offsetRdlength; omega)]
    dsimp only [bind, Except.bind]
    by_cases haddr : IsAddress v q
    · unfold IsAddress at haddr
      rw [if_pos haddr]
      by_cases hdata : q + offsetRdata + 4 ≤ v.limit
      · rw [cells_of_le hdata]
        exact .inl ⟨⟨hfixed, fun _ => hdata⟩, _, rfl⟩
      · rw [cells_of_lt (by decide) (Nat.not_le.1 hdata)]
        exact .inr ⟨fun h => hdata (h.2 haddr), rfl⟩
    · unfold IsAddress at haddr
      rw [if_neg haddr]
      exact .inl ⟨⟨hfixed, fun h => absurd h haddr⟩, _, rfl⟩

/-- How a round of the loop over the answers can end. -/
theorem answerRound_cases (hlim : v.limit ≤ dnsMsgLen) (fuel p : ℕ) :
    (∃ q new, NameEnds v p ∧ LabelsEnd v p q ∧ RecordInside v q ∧
        answerRound v fuel p = .ok (some (new, recordEnd v q))) ∨
      (answerRound v fuel p = .error .running ∧ (Cyclic (Follow v) p ∨ fuel ≤ v.limit)) ∨
      (answerRound v fuel p = .error .outside ∧ ¬ AnswerInside v p) := by
  unfold answerRound
  rcases newName_cases hlim fuel p with ⟨name, len, hr, hends⟩ | ⟨hr, hcyc⟩ | ⟨hr, hin⟩
  · rw [hr]
    dsimp only [bind, Except.bind]
    rcases skipLabels_cases v fuel p with ⟨q, hq, hs⟩ | ⟨hs, hle⟩ | ⟨hs, hno⟩
    · rw [hs]
      dsimp only
      rcases readRecord_cases v name q with ⟨hrec, new, hret⟩ | ⟨hrec, hret⟩
      · rw [hret]
        exact .inl ⟨q, new, hends, hq, hrec, rfl⟩
      · rw [hret]
        exact .inr (.inr ⟨rfl, fun h => hrec (h.2 hends q hq)⟩)
    · rw [hs]
      exact .inr (.inl ⟨rfl, .inr (by omega)⟩)
    · obtain ⟨q, hq⟩ := hends.labelsEnd
      exact absurd hq (hno q)
  · rw [hr]
    exact .inr (.inl ⟨rfl, hcyc⟩)
  · rw [hr]
    exact .inr (.inr ⟨rfl, fun h => hin h.1⟩)

/-- How the loop over the answers can end: it reads `n` answers, or one of them goes round
or lies not inside. -/
theorem answersLoop_cases (hlim : v.limit ≤ dnsMsgLen) (fuel n : ℕ) {k p : ℕ}
    (hp : AnswerAt v k p) (ais : List AddrInfo) :
    ((∃ q, AnswerAt v (k + n) q) ∧ ∃ ais', answersLoop v fuel n p ais = .ok (some ais')) ∨
      (answersLoop v fuel n p ais = .error .running ∧
        (fuel ≤ v.limit ∨ ∃ j q, j < k + n ∧ AnswerAt v j q ∧ Cyclic (Follow v) q)) ∨
      (answersLoop v fuel n p ais = .error .outside ∧
        ∃ j q, j < k + n ∧ AnswerAt v j q ∧ ¬ AnswerInside v q) := by
  induction n generalizing k p ais with
  | zero => exact .inl ⟨⟨p, hp⟩, ais, rfl⟩
  | succ n ih =>
      unfold answersLoop
      rcases answerRound_cases hlim fuel p with ⟨q, new, hends, hq, hrec, hr⟩ | ⟨hr, hwhy⟩ | ⟨hr, hin⟩
      · rw [hr]
        have hrest := ih (.next hp hends hq hrec) (ais ++ new)
        rw [show k + 1 + n = k + (n + 1) by omega] at hrest
        exact hrest
      · rw [hr]
        refine .inr (.inl ⟨rfl, ?_⟩)
        rcases hwhy with hcyc | hfuel
        · exact .inr ⟨k, p, by omega, hp, hcyc⟩
        · exact .inl hfuel
      · rw [hr]
        exact .inr (.inr ⟨rfl, k, p, by omega, hp, hin⟩)

end Answers

/-! ## Messages -/

section Messages

variable {v : Response}

/-- The number of answers that the header gives. -/
def answerCount (v : Response) : ℕ := (hostWord v.mem offsetAncount).toNat

/-- How the reading of the answers can end. -/
theorem readAnswers_cases (hhead : dnsHeaderLen ≤ v.limit) (hlim : v.limit ≤ dnsMsgLen)
    (fuel : ℕ) :
    ((∃ q, AnswerAt v (answerCount v) q) ∧ ∃ ais, readAnswers v fuel = .ok (0, some ais)) ∨
      (readAnswers v fuel = .error .running ∧
        (fuel ≤ v.limit ∨ ∃ j q, j < answerCount v ∧ AnswerAt v j q ∧ Cyclic (Follow v) q)) ∨
      (readAnswers v fuel = .error .outside ∧ ((∀ q, ¬ AnswerAt v 0 q) ∨
        ∃ j q, j < answerCount v ∧ AnswerAt v j q ∧ ¬ AnswerInside v q)) := by
  unfold dnsHeaderLen at hhead
  unfold readAnswers skipQuestions
  rw [dnsResponseGet16_of_le (p := offsetQdcount) (by unfold offsetQdcount; omega)]
  dsimp only [bind, Except.bind]
  rcases skipQuestionsLoop_cases v fuel (hostWord v.mem offsetQdcount).toNat offsetQuestion
    with ⟨p, hp, hr⟩ | ⟨hr, hfuel⟩ | ⟨hr, hno⟩
  · rw [hr]
    dsimp only
    rw [dnsResponseGet16_of_le (p := offsetAncount) (by unfold offsetAncount; omega)]
    dsimp only
    rcases answersLoop_cases hlim fuel (answerCount v) (.first hp) []
      with ⟨⟨q, hq⟩, ais, hret⟩ | ⟨hret, hwhy⟩ | ⟨hret, j, q, hj, hq, hin⟩
    · rw [Nat.zero_add] at hq
      unfold answerCount at hret
      rw [hret]
      exact .inl ⟨⟨q, hq⟩, ais, rfl⟩
    · rw [Nat.zero_add] at hwhy
      unfold answerCount at hret
      rw [hret]
      exact .inr (.inl ⟨rfl, hwhy⟩)
    · rw [Nat.zero_add] at hj
      unfold answerCount at hret
      rw [hret]
      exact .inr (.inr ⟨rfl, .inr ⟨j, q, hj, hq, hin⟩⟩)
  · rw [hr]
    exact .inr (.inl ⟨rfl, .inl hfuel⟩)
  · rw [hr]
    refine .inr (.inr ⟨rfl, .inl fun q hq => ?_⟩)
    cases hq with
    | first hp => exact hno q hp

variable {len : ℕ} {id : BitVec 16}

theorem processResponse_of_isAnswer (hhead : dnsHeaderLen ≤ v.limit) (fuel : ℕ)
    (hlen : dnsHeaderLen ≤ len) (hid : IsAnswer v id) :
    processResponse v fuel len id = (do pure (some (← readAnswers v fuel))) := by
  unfold dnsHeaderLen at hhead
  unfold processResponse
  rw [if_neg (by omega), dnsResponseGet16_of_le (by unfold offsetId; omega),
    cell_of_lt (by unfold offsetRcode; omega)]
  dsimp only [bind, Except.bind]
  rw [if_neg (not_not.2 hid.1), hid.2, if_neg (by decide), if_neg (by decide)]

/-- A message that is not looked into is done with at once. -/
theorem processResponse_of_not_isAnswer (hhead : dnsHeaderLen ≤ v.limit) (fuel : ℕ)
    (h : ¬ (dnsHeaderLen ≤ len ∧ IsAnswer v id)) : ∃ r, processResponse v fuel len id = .ok r := by
  unfold dnsHeaderLen at hhead
  unfold processResponse
  rw [dnsResponseGet16_of_le (by unfold offsetId; omega),
    cell_of_lt (by unfold offsetRcode; omega)]
  dsimp only [bind, Except.bind]
  split_ifs with hlen hid hname hcode
  · exact ⟨_, rfl⟩
  · exact ⟨_, rfl⟩
  · exact ⟨_, rfl⟩
  · exact ⟨_, rfl⟩
  · exact absurd ⟨Nat.not_lt.1 hlen, not_not.1 hid, not_not.1 hcode⟩ h

/-- Reading the answers goes round if and only if one of the names that are read does. -/
theorem readAnswers_eq_running (hhead : dnsHeaderLen ≤ v.limit) (hlim : v.limit ≤ dnsMsgLen)
    {fuel j q : ℕ} (hj : j < answerCount v) (hq : AnswerAt v j q) (hcyc : Cyclic (Follow v) q) :
    readAnswers v fuel = .error .running := by
  rcases readAnswers_cases hhead hlim fuel with ⟨⟨p, hp⟩, -⟩ | ⟨hr, -⟩ | ⟨-, hno | ⟨i, p, hi, hp, hin⟩⟩
  · exact absurd hcyc (hp.before hq hj).1.not_cyclic
  · exact hr
  · obtain ⟨p, hp⟩ := hq.exists_first
    exact absurd hp (hno p)
  · exfalso
    rcases Nat.lt_trichotomy i j with hij | rfl | hij
    · -- an answer before this one has been read, so it lies inside
      obtain ⟨hends, hrec⟩ := hq.before hp hij
      exact hin ⟨hends.nameInside, fun _ => hrec⟩
    · rw [hp.unique hq] at hin
      exact hin ⟨cyclic_nameInside hcyc, fun hends => absurd hcyc hends.not_cyclic⟩
    · exact absurd hcyc (hp.before hq hij).1.not_cyclic

/-- What `recv_dns_response` examines of a message lies before the limit, and no name that it
reads leads into a cycle. -/
structure MessageInside (v : Response) : Prop where
  questions : ∃ p, AnswerAt v 0 p
  answers : ∀ k p, k < answerCount v → AnswerAt v k p →
    AnswerInside v p ∧ ¬ Cyclic (Follow v) p

/-! ### When it returns -/

/-- The loops over the questions and the answers are left exactly on such messages. -/
theorem readAnswers_returns_iff (hhead : dnsHeaderLen ≤ v.limit) (hlim : v.limit ≤ dnsMsgLen) :
    (∃ fuel r, readAnswers v fuel = .ok r) ↔ MessageInside v := by
  constructor
  · rintro ⟨fuel, r, hr⟩
    rcases readAnswers_cases hhead hlim fuel with ⟨⟨q, hq⟩, -⟩ | ⟨hrun, -⟩ | ⟨hout, -⟩
    · refine ⟨hq.exists_first, fun k p hk hp => ?_⟩
      obtain ⟨hends, hrec⟩ := hq.before hp hk
      exact ⟨⟨hends.nameInside, fun _ => hrec⟩, hends.not_cyclic⟩
    · rw [hrun] at hr
      cases hr
    · rw [hout] at hr
      cases hr
  · rintro ⟨⟨p, hp⟩, hanswers⟩
    refine ⟨v.limit + 1, ?_⟩
    rcases readAnswers_cases hhead hlim (v.limit + 1)
      with ⟨-, ais, hr⟩ | ⟨-, hfuel | ⟨j, q, hj, hq, hcyc⟩⟩ | ⟨-, hno | ⟨j, q, hj, hq, hin⟩⟩
    · exact ⟨_, hr⟩
    · exact absurd hfuel (Nat.not_succ_le_self _)
    · exact absurd hcyc (hanswers j q hj hq).2
    · exact absurd hp (hno p)
    · exact absurd (hanswers j q hj hq).1 hin

/-- `parse_name` returns exactly from the starts whose walk stays before the limit and leads
into no cycle. -/
theorem parseName_returns_iff (v : Response) (store : Bool) (p : ℕ) :
    (∃ fuel r, parseName v fuel store p = .ok r) ↔
      NameInside v p ∧ ¬ Cyclic (Follow v) p := by
  constructor
  · rintro ⟨fuel, r, hr⟩
    have hcyc : ¬ Cyclic (Follow v) p := by
      intro hcyc
      rw [parseName_of_cyclic fuel store hcyc] at hr
      cases hr
    obtain ⟨hends, -⟩ := nameEnds_of_parseName hr
    exact ⟨hends.nameInside, hcyc⟩
  · rintro ⟨hin, hcyc⟩
    refine ⟨v.limit + 1, ?_⟩
    rcases parseName_of_not_cyclic (v.limit + 1) store hcyc (Nat.lt_succ_self v.limit)
      with ⟨r, k, hr, -⟩ | hr
    · exact ⟨r, hr⟩
    · exact absurd hr (parseName_ne_outside hin)

/-- **Reading a response returns**, having examined nothing behind the buffer, if and only if the
message is not looked into, or what is read of it lies inside the buffer and no name leads into
a cycle of labels and compression pointers; the same holds of `parse_name` from every start. -/
theorem processResponse_halts_iff (mem : ℕ → Byte) (len : ℕ) (id : BitVec 16) :
    ((∃ fuel r, processResponse ⟨mem, dnsMsgLen⟩ fuel len id = .ok r) ↔
        (dnsHeaderLen ≤ len → IsAnswer ⟨mem, dnsMsgLen⟩ id → MessageInside ⟨mem, dnsMsgLen⟩)) ∧
    ∀ (v : Response) (store : Bool) (p : ℕ),
      (∃ fuel r, parseName v fuel store p = .ok r) ↔ NameInside v p ∧ ¬ Cyclic (Follow v) p := by
  refine ⟨?_, parseName_returns_iff⟩
  have hhead : dnsHeaderLen ≤ dnsMsgLen := by decide
  by_cases hin : dnsHeaderLen ≤ len ∧ IsAnswer ⟨mem, dnsMsgLen⟩ id
  · have hread := readAnswers_returns_iff (v := ⟨mem, dnsMsgLen⟩) hhead le_rfl
    constructor
    · rintro ⟨fuel, r, hr⟩ - -
      rw [processResponse_of_isAnswer hhead fuel hin.1 hin.2] at hr
      obtain ⟨r', hr', -⟩ := bind_eq_ok.1 hr
      exact hread.1 ⟨fuel, r', hr'⟩
    · intro h
      obtain ⟨fuel, r, hr⟩ := hread.2 (h hin.1 hin.2)
      refine ⟨fuel, some r, ?_⟩
      rw [processResponse_of_isAnswer hhead fuel hin.1 hin.2, hr]
      rfl
  · constructor
    · exact fun _ hlen hid => absurd ⟨hlen, hid⟩ hin
    · intro _
      exact ⟨0, processResponse_of_not_isAnswer hhead 0 hin⟩

/-- A response with one answer, whose name is a pointer to itself. -/
def selfPointer : ℕ → Byte := fun i =>
  [0, 0, 0, 0, 0, 0, 0, 1, 0, 0, 0, 0, 0xC0, 0x0C].getD i 0

/-- The name that points to itself is read for ever. -/
theorem selfPointer_runs : ¬ ∀ (mem : ℕ → Byte) (len : ℕ) (id : BitVec 16),
    ∃ fuel, processResponse ⟨mem, dnsMsgLen⟩ fuel len id ≠ .error .running := by
  intro h
  obtain ⟨fuel, hret⟩ := h selfPointer 28 0
  have hstep : Follow ⟨selfPointer, dnsMsgLen⟩ 12 12 := .pointer (by decide) (by decide)
  apply hret
  rw [processResponse_of_isAnswer (by decide) fuel (by decide) ⟨by decide, by decide⟩,
    readAnswers_eq_running (j := 0) (q := 12) (by decide) le_rfl (by decide) (.first .nil)
      ⟨12, .refl, .single hstep⟩]
  rfl

/-! ## Reading inside the message -/

/-- The questions, and the answers that the header counts, lie before the limit. -/
structure Inside (v : Response) : Prop where
  questions : ∃ p, AnswerAt v 0 p
  starts : ∀ k p, k ≤ answerCount v → AnswerAt v k p → p ≤ v.limit
  answers : ∀ k p, k < answerCount v → AnswerAt v k p → AnswerInside v p

/-- Only bytes of the message are examined, and a message that is looked into and runs past
its end is rejected. -/
structure ReadsInside (mem : ℕ → Byte) (n : ℕ) (id : BitVec 16) : Prop where
  inside : ∀ fuel, processResponse ⟨mem, n⟩ fuel n id ≠ .error .outside
  rejected : IsAnswer ⟨mem, n⟩ id → ¬ Inside ⟨mem, n⟩ →
    ∃ fuel, processResponse ⟨mem, dnsMsgLen⟩ fuel n id = .ok (some (eaiFail, none))

theorem readAnswers_ne_outside (h : Inside v) (hhead : dnsHeaderLen ≤ v.limit)
    (hlim : v.limit ≤ dnsMsgLen) (fuel : ℕ) : readAnswers v fuel ≠ .error .outside := by
  rcases readAnswers_cases hhead hlim fuel
    with ⟨-, ais, hr⟩ | ⟨hr, -⟩ | ⟨-, hno | ⟨j, q, hj, hq, hin⟩⟩
  · rw [hr]
    rintro hc
    cases hc
  · rw [hr]
    rintro hc
    cases hc
  · obtain ⟨p, hp⟩ := h.questions
    exact absurd hp (hno p)
  · exact absurd (h.answers j q hj hq) hin

/-- A response that is looked into is never rejected. -/
theorem readAnswers_ne_eaiFail (hhead : dnsHeaderLen ≤ v.limit) (hlim : v.limit ≤ dnsMsgLen)
    (fuel : ℕ) : readAnswers v fuel ≠ .ok (eaiFail, none) := by
  rcases readAnswers_cases hhead hlim fuel with ⟨-, ais, hr⟩ | ⟨hr, -⟩ | ⟨hr, -⟩
  · rw [hr]
    rintro hc
    cases hc
  · rw [hr]
    rintro hc
    cases hc
  · rw [hr]
    rintro hc
    cases hc

/-- **Reading stays inside the message** if and only if what the message is made up of
does: nothing is checked, and nothing is rejected. -/
theorem readsInside_iff (mem : ℕ → Byte) (n : ℕ) (id : BitVec 16) (hmin : dnsHeaderLen ≤ n)
    (hmax : n ≤ dnsMsgLen) :
    ReadsInside mem n id ↔ (IsAnswer ⟨mem, n⟩ id → Inside ⟨mem, n⟩) := by
  constructor
  · intro h hid
    by_contra hin
    obtain ⟨fuel, hr⟩ := h.rejected hid hin
    have hid' : IsAnswer ⟨mem, dnsMsgLen⟩ id := hid
    have hhead : dnsHeaderLen ≤ dnsMsgLen := by decide
    rw [processResponse_of_isAnswer (v := ⟨mem, dnsMsgLen⟩) hhead fuel hmin hid'] at hr
    obtain ⟨r, hread, hsome⟩ := bind_eq_ok.1 hr
    cases hsome
    exact readAnswers_ne_eaiFail (v := ⟨mem, dnsMsgLen⟩) hhead le_rfl fuel hread
  · intro h
    refine ⟨fun fuel => ?_, fun hid hin => absurd (h hid) hin⟩
    by_cases hid : IsAnswer ⟨mem, n⟩ id
    · rw [processResponse_of_isAnswer (v := ⟨mem, n⟩) hmin fuel hmin hid]
      refine bind_ne_error.2 ⟨readAnswers_ne_outside (h hid) hmin hmax fuel, ?_⟩
      rintro r - hc
      cases hc
    · have hother : ¬ (dnsHeaderLen ≤ n ∧ IsAnswer ⟨mem, n⟩ id) := fun hc => hid hc.2
      obtain ⟨r, hr⟩ := processResponse_of_not_isAnswer (v := ⟨mem, n⟩) hmin fuel hother
      rw [hr]
      rintro hc
      cases hc

/-! ### An answer with an alias -/

/-- A response for the name `a` with an alias and an address. -/
def aliasResponse : List Byte :=
  [0x12, 0x34, 0x81, 0x80, 0, 1, 0, 2, 0, 0, 0, 0] ++ [1, 0x61, 0, 0, 1, 0, 1] ++
    [0xC0, 12, 0, 5, 0, 1, 0, 0, 0, 9, 0, 2, 0xC0, 12] ++
    [0xC0, 12, 0, 1, 0, 1, 0, 0, 0, 9, 0, 4, 10, 0, 0, 1]

/-- Its question, its two names, which point to the question, and both records are read inside
its 49 bytes. -/
theorem readsInside_aliasResponse :
    ReadsInside (fun i => aliasResponse.getD i 0) 49 0x1234 := by
  have hzero : AnswerAt ⟨fun i => aliasResponse.getD i 0, 49⟩ 0 19 :=
    .first (.cons (.text (by decide) (by decide) (.zero (by decide) (by decide))) .nil)
  have hends : ∀ p, Follow ⟨fun i => aliasResponse.getD i 0, 49⟩ p 12 →
      NameEnds ⟨fun i => aliasResponse.getD i 0, 49⟩ p := fun p hp =>
    ⟨14, .head hp (.single (.text (by decide) (by decide))), by decide, by decide⟩
  have hname : NameEnds ⟨fun i => aliasResponse.getD i 0, 49⟩ 19 :=
    hends 19 (.pointer (by decide) (by decide))
  have hname' : NameEnds ⟨fun i => aliasResponse.getD i 0, 49⟩ 33 :=
    hends 33 (.pointer (by decide) (by decide))
  have hlabels : LabelsEnd ⟨fun i => aliasResponse.getD i 0, 49⟩ 19 21 :=
    .pointer (by decide) (by decide)
  have hlabels' : LabelsEnd ⟨fun i => aliasResponse.getD i 0, 49⟩ 33 35 :=
    .pointer (by decide) (by decide)
  have hrecord : RecordInside ⟨fun i => aliasResponse.getD i 0, 49⟩ 21 :=
    ⟨by decide, fun _ => by decide⟩
  have hrecord' : RecordInside ⟨fun i => aliasResponse.getD i 0, 49⟩ 35 :=
    ⟨by decide, fun _ => by decide⟩
  have hone : AnswerAt ⟨fun i => aliasResponse.getD i 0, 49⟩ 1 33 :=
    .next hzero hname hlabels hrecord
  have htwo : AnswerAt ⟨fun i => aliasResponse.getD i 0, 49⟩ 2 49 :=
    .next hone hname' hlabels' hrecord'
  refine (readsInside_iff _ 49 0x1234 (by decide) (by decide)).2 fun _ => ⟨⟨19, hzero⟩, ?_, ?_⟩
  · intro k p hk hp
    have hk' : k ≤ 2 := hk
    interval_cases k
    · rw [hp.unique hzero]
      decide
    · rw [hp.unique hone]
      decide
    · rw [hp.unique htwo]
  · intro k p hk hp
    have hk' : k < 2 := hk
    interval_cases k
    · rw [hp.unique hzero]
      refine ⟨hname.nameInside, fun _ q hq => ?_⟩
      rw [hq.unique hlabels]
      exact hrecord
    · rw [hp.unique hone]
      refine ⟨hname'.nameInside, fun _ q hq => ?_⟩
      rw [hq.unique hlabels']
      exact hrecord'

/-- A header that announces an answer and nothing behind it: the first byte behind the
message is examined. -/
theorem readsInside_fails : ¬ ∀ (mem : ℕ → Byte) (n : ℕ) (id : BitVec 16),
    dnsHeaderLen ≤ n → n ≤ dnsMsgLen → ReadsInside mem n id := by
  intro h
  have hr : processResponse ⟨fun i => if i = 7 then 1 else 0, 12⟩ 1 12 0 = .error .outside := rfl
  exact (h _ 12 0 (by decide) (by decide)).inside 1 hr

end Messages

end Dns

end Nucleo
