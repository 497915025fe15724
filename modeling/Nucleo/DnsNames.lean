/-
# The text of a DNS name

`new_name` walks over a name twice: `get_name_size` counts the bytes, and after `malloc`
the second pass writes them.  The two passes are one function, `parse_name`, which looks at
`dst` in four places.

A name is the list of the labels that the walk visits (`NameLabels`).  Both passes visit
the same labels and agree on their number of bytes (`newName_eq`); since a walk that
ends visits no position twice, the 16 bits of the counter are enough for every message that
fits the buffer.
-/
import Nucleo.DnsResponse

namespace Nucleo

namespace Dns

open Guarded Walk Relation

/-! ## The labels of a name -/

/-- The texts of the labels that the walk from a position visits up to the end label. -/
inductive NameLabels (v : Response) : ℕ → List (List Byte) → Prop
  | zero {p : ℕ} (hp : p < v.limit) (hb : labelIsend (v.mem p) = true) : NameLabels v p []
  | pointer {p : ℕ} {ls : List (List Byte)} (hp : p + 1 < v.limit)
      (hb : labelIspointer (v.mem p) = true)
      (hrest : NameLabels v (pointerOffset (hostWord v.mem p)) ls) : NameLabels v p ls
  | text {p : ℕ} {ls : List (List Byte)} (hp : p < v.limit) (hb : labelIsstr (v.mem p) = true)
      (hrest : NameLabels v (p + (getLabelLen (v.mem p) + 1)) ls) :
      NameLabels v p (Memory.read v.mem (p + 1) (getLabelLen (v.mem p)) :: ls)

section Labels

variable {v : Response} {p : ℕ} {ls : List (List Byte)}

theorem NameLabels.nameEnds (h : NameLabels v p ls) : NameEnds v p := by
  induction h with
  | zero hp hb => exact ⟨_, .refl, hp, hb⟩
  | pointer hp hb _ ih =>
      obtain ⟨e, hreach, hlt, hend⟩ := ih
      exact ⟨e, hreach.head (.pointer hp hb), hlt, hend⟩
  | text hp hb _ ih =>
      obtain ⟨e, hreach, hlt, hend⟩ := ih
      exact ⟨e, hreach.head (.text hp hb), hlt, hend⟩

/-- A name that ends has labels. -/
theorem NameEnds.labels (h : NameEnds v p) : ∃ ls, NameLabels v p ls := by
  obtain ⟨e, hreach, hlt, hend⟩ := h
  induction hreach using ReflTransGen.head_induction_on with
  | refl => exact ⟨[], .zero hlt hend⟩
  | head hstep _ ih =>
      obtain ⟨ls, hls⟩ := ih
      cases hstep with
      | text hp hb => exact ⟨_, .text hp hb hls⟩
      | pointer hp hb => exact ⟨ls, .pointer hp hb hls⟩

theorem NameLabels.unique {ls' : List (List Byte)} (h : NameLabels v p ls)
    (h' : NameLabels v p ls') : ls = ls' := by
  induction h generalizing ls' with
  | zero hp hb =>
      cases h' with
      | zero _ _ => rfl
      | pointer _ hb' _ => exact absurd hb (not_end_of_pointer hb')
      | text _ hb' _ => exact absurd hb' (not_str_of_end hb)
  | pointer hp hb _ ih =>
      cases h' with
      | zero _ hb' => exact absurd hb' (not_end_of_pointer hb)
      | pointer _ _ hrest' => exact ih hrest'
      | text _ hb' _ => exact absurd hb' (not_str_of_pointer hb)
  | text hp hb _ ih =>
      cases h' with
      | zero _ hb' => exact absurd hb (not_str_of_end hb')
      | pointer _ hb' _ => exact absurd hb (not_str_of_pointer hb')
      | text _ _ hrest' => rw [ih hrest']

/-- Only the bytes below the limit matter, and a higher limit takes no name away. -/
theorem NameLabels.mono {v' : Response} (h : NameLabels v p ls) (hmem : v'.mem = v.mem)
    (hlim : v.limit ≤ v'.limit) : NameLabels v' p ls := by
  induction h with
  | zero hp hb => exact .zero (by omega) (by rw [hmem]; exact hb)
  | pointer hp hb _ ih => exact .pointer (by omega) (by rw [hmem]; exact hb) (by rw [hmem]; exact ih)
  | text hp hb _ ih =>
      rw [← hmem] at hb ih ⊢
      exact .text (by omega) hb ih

end Labels

/-! ## Labels joined by dots -/

/-- The labels, joined by single dots. -/
def joined (ls : List (List Byte)) : List Byte := List.intercalate [0x2E] ls

@[simp] theorem joined_nil : joined [] = [] := rfl

@[simp] theorem joined_singleton (l : List Byte) : joined [l] = l := List.intercalate_singleton

theorem joined_cons {ls : List (List Byte)} (l : List Byte) (h : ls ≠ []) :
    joined (l :: ls) = l ++ 0x2E :: joined ls := by
  unfold joined
  rw [List.intercalate_cons_of_ne_nil h, List.append_assoc]
  rfl

/-- One more label. -/
theorem joined_snoc {ls : List (List Byte)} (l : List Byte) (h : ls ≠ []) :
    joined (ls ++ [l]) = joined ls ++ 0x2E :: l := by
  induction ls with
  | nil => exact absurd rfl h
  | cons l' ls ih =>
      cases ls with
      | nil => rw [List.singleton_append, joined_cons _ (List.cons_ne_nil _ _), joined_singleton,
          joined_singleton]
      | cons l'' ls =>
          rw [List.cons_append, joined_cons l' (by simp), ih (List.cons_ne_nil _ _),
            joined_cons l' (List.cons_ne_nil _ _), List.append_assoc, List.cons_append]

/-- The length after one more label: a dot is counted unless the label is the first. -/
theorem length_joined_snoc (ls : List (List Byte)) (l : List Byte) :
    (joined (ls ++ [l])).length
      = (joined ls).length + (if ls.isEmpty then 0 else 1) + l.length := by
  cases ls with
  | nil => simp
  | cons l' ls =>
      rw [joined_snoc l (List.cons_ne_nil _ _), List.length_append, List.length_cons]
      simp only [List.isEmpty_cons, Bool.false_eq_true, if_false]
      omega

/-! ## The two passes -/

section Passes

variable {v : Response} {p : ℕ} {ls : List (List Byte)} {store : Bool}

/-- The variables of `parse_name` after the labels `ls`. -/
structure Collected (store : Bool) (ls : List (List Byte)) (s : NameState) : Prop where
  first : s.firstLabelStr = ls.isEmpty
  count : s.strLen = BitVec.ofNat 16 (joined ls).length
  text : s.text = if store then joined ls else []

/-- A label is added by the dot and the text. -/
theorem Collected.snoc {s : NameState} (h : Collected store ls s) (str : List Byte) (label : ℕ) :
    Collected store (ls ++ [str])
      { s.separate store with
        label := label
        strLen := (s.separate store).strLen + BitVec.ofNat 16 str.length
        text := (s.separate store).text ++ if store then str else [] } := by
  obtain ⟨hfirst, hcount, htext⟩ := h
  have hnonempty : (ls ++ [str]).isEmpty = false := by cases ls <;> rfl
  unfold NameState.separate
  rw [hfirst]
  cases ls with
  | nil =>
      -- the first label: no dot
      refine ⟨hnonempty.symm, ?_, ?_⟩
      · show s.strLen + _ = _
        rw [hcount, List.nil_append, joined_singleton, joined_nil, List.length_nil]
        exact BitVec.zero_add _
      · show s.text ++ _ = _
        rw [htext, List.nil_append, joined_singleton, joined_nil]
        cases store <;> rfl
  | cons l ls =>
      have hne : l :: ls ≠ [] := List.cons_ne_nil _ _
      refine ⟨rfl, ?_, ?_⟩
      · show s.strLen + 1 + _ = _
        rw [hcount, joined_snoc str hne, List.length_append, List.length_cons,
          Nat.add_comm str.length 1, ← Nat.add_assoc, BitVec.ofNat_add, BitVec.ofNat_add]
        rfl
      · show (if store then s.text ++ [0x2E] else s.text) ++ _ = _
        rw [htext, joined_snoc str hne]
        cases store with
        | true => exact List.append_assoc _ [0x2E] str
        | false => rfl

/-- What both passes return for the labels of a name. -/
def passResult (store : Bool) (ls : List (List Byte)) : BitVec 16 × List Byte :=
  (BitVec.ofNat 16 ((joined ls).length + 1), if store then joined ls ++ [0] else [])

theorem Collected.finish {s : NameState} (h : Collected store ls s) (hp : s.label < v.limit)
    (hb : labelIsend (v.mem s.label) = true) :
    parseNameRound v store s = .ok (.inr (passResult store ls)) := by
  unfold parseNameRound
  rw [cell_of_lt hp]
  dsimp only [bind, Except.bind]
  rw [if_neg (fun hptr => not_end_of_pointer hptr hb), if_pos hb, h.count, h.text]
  unfold passResult
  rw [BitVec.ofNat_add]
  cases store <;> rfl

/-! ### In the middle of a name -/

/-- The labels visited so far and those still to come make up the name, and each round adds
at most 64 bytes. -/
def Midway (v : Response) (store : Bool) (ls : List (List Byte)) (k : ℕ) (s : NameState) : Prop :=
  ∃ past rest, past ++ rest = ls ∧ NameLabels v s.label rest ∧ Collected store past s ∧
    (joined past).length ≤ 64 * k

/-- The text of a label that the walk goes past lies inside. -/
theorem labelText_of_labels
    (hrest : NameLabels v (p + (getLabelLen (v.mem p) + 1)) ls) :
    labelText v store p (getLabelLen (v.mem p))
      = .ok (if store then Memory.read v.mem (p + 1) (getLabelLen (v.mem p)) else []) := by
  have hlt : p + (getLabelLen (v.mem p) + 1) < v.limit := by
    cases hrest with
    | zero hlt _ => exact hlt
    | pointer hlt _ _ => omega
    | text hlt _ _ => exact hlt
  unfold labelText
  cases store with
  | true => exact cells_of_le (by omega)
  | false => rfl

/-- **One round of either pass**: it ends with the result, or goes on midway. -/
theorem Midway.round {k : ℕ} {s : NameState} (h : Midway v store ls k s) :
    ((joined ls).length ≤ 64 * k ∧ parseNameRound v store s = .ok (.inr (passResult store ls))) ∨
      ∃ s', parseNameRound v store s = .ok (.inl s') ∧ Midway v store ls (k + 1) s' := by
  obtain ⟨past, rest, hls, hrest, hpast, hlen⟩ := h
  cases hrest with
  | zero hp hb =>
      rw [List.append_nil] at hls
      subst hls
      exact .inl ⟨hlen, hpast.finish hp hb⟩
  | pointer hp hb hrest =>
      refine .inr ⟨_, parseNameRound_of_pointer hp hb, past, rest, hls, hrest, ?_, by omega⟩
      exact ⟨hpast.first, hpast.count, hpast.text⟩
  | @text _ ls' hp hb hrest =>
      have hstr : parseNameRound v store s = _ := parseNameRound_of_str hp hb
      rw [labelText_of_labels hrest] at hstr
      refine .inr ⟨_, hstr, past ++ [Memory.read v.mem (s.label + 1) (getLabelLen (v.mem s.label))],
        ls', ?_, hrest, ?_, ?_⟩
      · rw [List.append_assoc]
        exact hls
      · have hsnoc := hpast.snoc (Memory.read v.mem (s.label + 1) (getLabelLen (v.mem s.label)))
          (s.label + (getLabelLen (v.mem s.label) + 1))
        rw [Memory.length_read] at hsnoc
        exact hsnoc
      · have hle := getLabelLen_le (v.mem s.label)
        rw [length_joined_snoc, Memory.length_read]
        split <;> omega

/-- Either pass over a name whose walk ends, and a bound for the number of its bytes. -/
theorem parseName_of_labels (h : NameLabels v p ls) (store : Bool) {fuel : ℕ}
    (hfuel : v.limit < fuel) :
    parseName v fuel store p = .ok (passResult store ls) ∧ (joined ls).length ≤ 64 * v.limit := by
  have hstart : Midway v store ls 0 ⟨p, 0, true, []⟩ :=
    ⟨[], ls, rfl, h, ⟨rfl, rfl, by cases store <;> rfl⟩, Nat.le_refl 0⟩
  have hround : ∀ k s s', Midway v store ls k s → parseNameRound v store s = .ok (.inl s') →
      Midway v store ls (k + 1) s' := by
    intro k s s' hmid hgo
    rcases hmid.round with ⟨-, hr⟩ | ⟨s'', hr, hmid'⟩
    · rw [hgo] at hr
      cases hr
    · rw [hgo] at hr
      cases hr
      exact hmid'
  have hloop : ∃ k s, k ≤ (Finset.range v.limit).card ∧ Midway v store ls k s ∧
      ((∃ r, parseNameRound v store s = .ok (.inr r) ∧ parseName v fuel store p = .ok r) ∨
        ∃ e, parseNameRound v store s = .error e ∧ parseName v fuel store p = .error e) := by
    apply loop_cases (b := ⟨p, 0, true, []⟩) (R := Follow v) (S := Finset.range v.limit)
      (J := Midway v store ls) NameState.label (fun s s' hr => (follow_of_parseNameRound hr).1)
      (fun a b hab => Finset.mem_range.2 hab.lt_limit) hround h.nameEnds.not_cyclic ?_ hstart
    rw [Finset.card_range]
    exact hfuel
  rw [Finset.card_range] at hloop
  obtain ⟨k, s, hk, hmid, hend⟩ := hloop
  rcases hmid.round with ⟨hlen, hlast⟩ | ⟨s', hgo, -⟩
  · refine ⟨?_, by omega⟩
    rcases hend with ⟨r, hr, hret⟩ | ⟨e, hr, -⟩
    · rw [hlast] at hr
      cases hr
      exact hret
    · rw [hlast] at hr
      cases hr
  · -- the loop has ended, so the round did not go on
    rcases hend with ⟨r, hr, -⟩ | ⟨e, hr, -⟩
    · rw [hgo] at hr
      cases hr
    · rw [hgo] at hr
      cases hr

/-- The counter does not wrap in a message that fits the buffer. -/
theorem toNat_passResult (hlim : v.limit ≤ dnsMsgLen) (h : NameLabels v p ls) (store : Bool) :
    (passResult store ls).1.toNat = (joined ls ++ [0]).length := by
  have hlen := (parseName_of_labels h store (Nat.lt_succ_self v.limit)).2
  unfold dnsMsgLen at hlim
  unfold passResult
  rw [List.length_append, List.length_singleton, BitVec.toNat_ofNat]
  exact Nat.mod_eq_of_lt (by omega)

/-- `new_name` on a name whose walk ends. -/
theorem newName_eq (hlim : v.limit ≤ dnsMsgLen) (h : NameLabels v p ls) {fuel : ℕ}
    (hfuel : v.limit < fuel) :
    newName v fuel p = .ok (some (joined ls ++ [0]), (passResult true ls).1) := by
  have hne : (passResult false ls).1 ≠ 0 := by
    intro hzero
    have hlen := toNat_passResult hlim h false
    rw [hzero, List.length_append] at hlen
    exact absurd hlen (by simp)
  unfold newName getNameSize
  rw [(parseName_of_labels h false hfuel).1, (parseName_of_labels h true hfuel).1]
  dsimp only [bind, Except.bind, pure, Except.pure]
  rw [if_neg hne]
  rfl

/-- **The two passes over a name agree.**  From every label of a 512-byte message from which
the walk ends inside the message, `get_name_size` returns the number of bytes that
`parse_name` writes into the memory that `new_name` gets for them: the labels visited,
joined by dots, and a NUL. -/
theorem name_passes_agree (mem : ℕ → Byte) (p : ℕ) (h : NameEnds ⟨mem, dnsMsgLen⟩ p) :
    ∃ ls, NameLabels ⟨mem, dnsMsgLen⟩ p ls ∧ ∀ fuel, dnsMsgLen < fuel →
      ∃ n : BitVec 16, getNameSize ⟨mem, dnsMsgLen⟩ fuel p = .ok n ∧
        parseName ⟨mem, dnsMsgLen⟩ fuel true p = .ok (n, joined ls ++ [0]) ∧
        n.toNat = (joined ls ++ [0]).length ∧
        newName ⟨mem, dnsMsgLen⟩ fuel p = .ok (some (joined ls ++ [0]), n) := by
  obtain ⟨ls, hls⟩ := h.labels
  refine ⟨ls, hls, fun fuel hfuel => ⟨(passResult true ls).1, ?_, ?_, ?_, ?_⟩⟩
  · unfold getNameSize
    rw [(parseName_of_labels hls false hfuel).1]
    rfl
  · exact (parseName_of_labels hls true hfuel).1
  · exact toNat_passResult le_rfl hls true
  · exact newName_eq le_rfl hls hfuel

/-! ## A name with a pointer -/

/-- `www` and a pointer to `x`. -/
def pointerName : ℕ → Byte := fun i =>
  [3, 0x77, 0x77, 0x77, 0xC0, 6, 1, 0x78, 0].getD i 0

theorem pointerName_ends : NameEnds ⟨pointerName, dnsMsgLen⟩ 0 := by
  have h1 : Follow ⟨pointerName, dnsMsgLen⟩ 0 4 := .text (by decide) (by decide)
  have h2 : Follow ⟨pointerName, dnsMsgLen⟩ 4 6 := .pointer (by decide) (by decide)
  have h3 : Follow ⟨pointerName, dnsMsgLen⟩ 6 8 := .text (by decide) (by decide)
  exact ⟨8, ((ReflTransGen.single h1).tail h2).tail h3, by decide, by decide⟩

/-- The walk through a pointer fills six bytes. -/
theorem name_passes_agree_pointerName :
    ∃ ls, NameLabels ⟨pointerName, dnsMsgLen⟩ 0 ls ∧
      ∃ n : BitVec 16, getNameSize ⟨pointerName, dnsMsgLen⟩ 513 0 = .ok n ∧
        n.toNat = (joined ls ++ [0]).length := by
  obtain ⟨ls, hls, hpasses⟩ := name_passes_agree pointerName 0 pointerName_ends
  obtain ⟨n, hsize, -, hlen, -⟩ := hpasses 513 (by decide)
  exact ⟨ls, hls, n, hsize, hlen⟩

end Passes

end Dns

end Nucleo
