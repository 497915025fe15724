/-
# Tag-length-value streams

A stream of options, each a tag, a length and that many cells of payload, with
single padding cells in between and an optional stop cell at the end.

`decode` reads a list as such a stream and also tells the tag of an option that
the end of the list cuts short.  `scan` is the loop that walks over a memory with
a pointer and looks at whatever stands behind a tag; it knows the end of the
stream but not whether an option fits before it.  `scan_rel` relates the loop to a
fold over the decoded options when no option it looks into is cut short.

An `Item` is a padding cell or an option; `decode_write` says that a stream of items that
is written out is decoded to its options, wherever the padding stands.
-/
import Nucleo.Lib.Memory

namespace Tlv

/-- The cells that are no tags, and how a cell encodes a length. -/
structure Format (α : Type*) where
  pad : α
  stop : α
  len : α → ℕ

variable {α σ : Type*} [DecidableEq α] (F : Format α)

/-- The options of a stream in order, and the tag of the option cut short by the
end of the list, if there is one.  The first argument bounds the number of cells. -/
def decode : ℕ → List α → List (α × List α) × Option α
  | 0, _ => ([], none)
  | _ + 1, [] => ([], none)
  | fuel + 1, tag :: rest =>
      if tag = F.pad then decode fuel rest
      else if tag = F.stop then ([], none)
      else
        match rest with
        | [] => ([], some tag)
        | l :: rest =>
            if F.len l ≤ rest.length then
              let r := decode fuel (rest.drop (F.len l))
              ((tag, rest.take (F.len l)) :: r.1, r.2)
            else ([], some tag)

/-- The pointer loop: `visit tag len p` acts on the option whose payload starts at
address `p`, and the loop ends at `pEnd` or at a stop cell.  The first argument
bounds the rounds. -/
def scan (m : ℕ → α) (pEnd : ℕ) (visit : α → α → ℕ → σ → σ) : ℕ → ℕ → σ → σ
  | 0, _, s => s
  | fuel + 1, p, s =>
      if p < pEnd then
        if m p = F.pad then scan m pEnd visit fuel (p + 1) s
        else if m p = F.stop then s
        else scan m pEnd visit fuel (p + 2 + F.len (m (p + 1))) (visit (m p) (m (p + 1)) (p + 2) s)
      else s

variable {F}

omit [DecidableEq α] in
/-- The options written out, with `cell n` for the length `n`. -/
def encode (cell : ℕ → α) (os : List (α × List α)) : List α :=
  os.flatMap fun o => o.1 :: cell o.2.length :: o.2

/-! ## Coding and decoding -/

/-- Options that are written out and followed by a stop cell are read back. -/
theorem decode_encode {cell : ℕ → α} (hstop : F.stop ≠ F.pad) {os : List (α × List α)}
    (hos : ∀ o ∈ os, o.1 ≠ F.pad ∧ o.1 ≠ F.stop ∧ F.len (cell o.2.length) = o.2.length)
    (rest : List α) {fuel : ℕ} (hfuel : os.length < fuel) :
    decode F fuel (encode cell os ++ F.stop :: rest) = (os, none) := by
  induction os generalizing fuel with
  | nil =>
      obtain ⟨fuel, rfl⟩ := Nat.exists_eq_add_one_of_ne_zero (Nat.ne_of_gt hfuel)
      unfold decode encode
      rw [List.flatMap_nil, List.nil_append]
      simp only [if_neg hstop, if_true]
  | cons o os ih =>
      obtain ⟨fuel, rfl⟩ := Nat.exists_eq_add_one_of_ne_zero (Nat.ne_zero_of_lt hfuel)
      obtain ⟨hpad, hend, hlen⟩ := hos o List.mem_cons_self
      have hcons : encode cell (o :: os) ++ F.stop :: rest
          = o.1 :: cell o.2.length :: (o.2 ++ (encode cell os ++ F.stop :: rest)) := by
        simp [encode]
      have hrest := ih (fun o' ho' => hos o' (List.mem_cons_of_mem _ ho')) (by simpa using hfuel)
      rw [hcons]
      unfold decode
      rw [if_neg hpad, if_neg hend]
      simp only [hlen, List.length_append, Nat.le_add_right, if_true, List.drop_left,
        List.take_left, hrest]

/-! ## The scan -/

/-- Past the end there is nothing to scan. -/
theorem scan_of_le {m : ℕ → α} {pEnd p : ℕ} (visit : α → α → ℕ → σ → σ) (fuel : ℕ) (s : σ)
    (h : pEnd ≤ p) : scan F m pEnd visit fuel p s = s := by
  cases fuel with
  | zero => rfl
  | succ fuel =>
      unfold scan
      rw [if_neg (by omega)]

/-- Two loops whose visits correspond end in corresponding states. -/
theorem scan_map {τ : Type*} {m : ℕ → α} {visit : α → α → ℕ → σ → σ}
    {visit' : α → α → ℕ → τ → τ} {f : σ → τ}
    (hvisit : ∀ tag len p s, f (visit tag len p s) = visit' tag len p (f s)) (pEnd fuel p : ℕ)
    (s : σ) : f (scan F m pEnd visit fuel p s) = scan F m pEnd visit' fuel p (f s) := by
  induction fuel generalizing p s with
  | zero => rfl
  | succ fuel ih =>
      unfold scan
      split_ifs
      · exact ih _ _
      · rfl
      · rw [ih, hvisit]
      · rfl

/-- **The loop as a fold.**  `act` says what a visit does with a complete option
that satisfies `P`, up to the relation `R`; a visit to an option that is cut short
must do nothing. -/
theorem scan_rel {τ : Type*} {m : ℕ → α} {pEnd : ℕ} {visit : α → α → ℕ → σ → σ}
    {act : τ → α × List α → τ} {R : σ → τ → Prop} {P : α × List α → Prop}
    (hvisit : ∀ p s t, P (m p, Memory.read m (p + 2) (F.len (m (p + 1)))) → R s t →
      R (visit (m p) (m (p + 1)) (p + 2) s)
        (act t (m p, Memory.read m (p + 2) (F.len (m (p + 1))))))
    (fuel p : ℕ) {s : σ} {t : τ} (hR : R s t) (hfuel : pEnd - p ≤ fuel)
    (hP : ∀ o ∈ (decode F fuel (Memory.read m p (pEnd - p))).1, P o)
    (hcut : ∀ tag, (decode F fuel (Memory.read m p (pEnd - p))).2 = some tag →
      ∀ len q s t, R s t → R (visit tag len q s) t) :
    R (scan F m pEnd visit fuel p s)
      ((decode F fuel (Memory.read m p (pEnd - p))).1.foldl act t) := by
  induction fuel generalizing p s t with
  | zero => exact hR
  | succ fuel ih =>
      by_cases hp : p < pEnd
      · obtain ⟨n, hn⟩ : ∃ n, pEnd - p = n + 1 := ⟨pEnd - p - 1, by omega⟩
        rw [hn, Memory.read_succ] at hP hcut ⊢
        unfold scan
        unfold decode at hP hcut ⊢
        rw [if_pos hp]
        by_cases hpad : m p = F.pad
        · rw [if_pos hpad] at hP hcut ⊢
          rw [if_pos hpad]
          have hrest : n = pEnd - (p + 1) := by omega
          rw [hrest] at hP hcut ⊢
          exact ih (p + 1) hR (by omega) hP hcut
        · rw [if_neg hpad] at hP hcut ⊢
          rw [if_neg hpad]
          by_cases hstop : m p = F.stop
          · rw [if_pos hstop, if_pos hstop]
            exact hR
          · rw [if_neg hstop] at hP hcut ⊢
            rw [if_neg hstop]
            -- what follows the tag: nothing, a length and its payload, or less than that
            cases n with
            | zero =>
                rw [Memory.read_zero] at hcut ⊢
                rw [scan_of_le visit fuel _ (by omega)]
                exact hcut (m p) rfl _ _ _ _ hR
            | succ n =>
                rw [Memory.read_succ] at hP hcut ⊢
                simp only [Memory.length_read] at hP hcut ⊢
                by_cases hlen : F.len (m (p + 1)) ≤ n
                · have hrest : n - F.len (m (p + 1)) = pEnd - (p + 2 + F.len (m (p + 1))) := by
                    omega
                  rw [if_pos hlen, Memory.take_read m _ hlen, Memory.drop_read m _ hlen,
                    hrest] at hP hcut ⊢
                  rw [List.foldl_cons]
                  apply ih _ _ (by omega) _ hcut
                  · exact hvisit p s t (hP _ List.mem_cons_self) hR
                  · intro o ho
                    exact hP o (List.mem_cons_of_mem _ ho)
                · rw [if_neg hlen] at hcut ⊢
                  rw [scan_of_le visit fuel _ (by omega)]
                  exact hcut (m p) rfl _ _ _ _ hR
      · have hzero : pEnd - p = 0 := by omega
        rw [scan_of_le visit (fuel + 1) s (by omega), hzero, Memory.read_zero]
        exact hR

/-- The loop collects the complete options: `scan_rel` with the options that have been
visited as the state of the fold. -/
theorem scan_options {m : ℕ → α} {pEnd : ℕ} {visit : α → α → ℕ → σ → σ}
    {R : σ → List (α × List α) → Prop} {P : α × List α → Prop}
    (hvisit : ∀ p s os, P (m p, Memory.read m (p + 2) (F.len (m (p + 1)))) → R s os →
      R (visit (m p) (m (p + 1)) (p + 2) s)
        (os ++ [(m p, Memory.read m (p + 2) (F.len (m (p + 1))))]))
    (fuel p : ℕ) {s : σ} (hR : R s []) (hfuel : pEnd - p ≤ fuel)
    (hP : ∀ o ∈ (decode F fuel (Memory.read m p (pEnd - p))).1, P o)
    (hcut : ∀ tag, (decode F fuel (Memory.read m p (pEnd - p))).2 = some tag →
      ∀ len q s os, R s os → R (visit tag len q s) os) :
    R (scan F m pEnd visit fuel p s) (decode F fuel (Memory.read m p (pEnd - p))).1 := by
  have hrun : R (scan F m pEnd visit fuel p s)
      ((decode F fuel (Memory.read m p (pEnd - p))).1.foldl (fun os o => os ++ [o]) []) :=
    scan_rel hvisit fuel p hR hfuel hP hcut
  have hfold : ∀ os : List (α × List α), os.foldl (fun os o => os ++ [o]) [] = os := by
    intro os
    rw [List.foldl_append_eq_append, List.nil_append, ← List.flatMap_def, List.flatMap_singleton']
  rw [hfold] at hrun
  exact hrun

/-! ## Streams of items -/

/-- An element of a stream. -/
inductive Item (α : Type*)
  | pad
  | option (tag : α) (payload : List α)

/-- The cells of an item, with `cell n` for the length `n`. -/
def Item.write (F : Format α) (cell : ℕ → α) : Item α → List α
  | .pad => [F.pad]
  | .option tag payload => tag :: cell payload.length :: payload

/-- The tag is none of the two other cells, and the length can be written. -/
def Item.WellFormed (F : Format α) (cell : ℕ → α) : Item α → Prop
  | .pad => True
  | .option tag payload =>
      tag ≠ F.pad ∧ tag ≠ F.stop ∧ F.len (cell payload.length) = payload.length

/-- The option of an item that is one. -/
def Item.option? : Item α → Option (α × List α)
  | .pad => none
  | .option tag payload => some (tag, payload)

/-- The cells of a stream. -/
def write (F : Format α) (cell : ℕ → α) (items : List (Item α)) : List α :=
  items.flatMap (Item.write F cell)

/-- The options of a stream, in order. -/
def options (items : List (Item α)) : List (α × List α) := items.filterMap Item.option?

/-- **A stream is decoded to its options**, up to its end or to a stop cell. -/
theorem decode_write {cell : ℕ → α} (hstop : F.stop ≠ F.pad) {items : List (Item α)}
    (hitems : ∀ i ∈ items, i.WellFormed F cell) {tail : List α}
    (htail : tail = [] ∨ ∃ rest, tail = F.stop :: rest) {fuel : ℕ}
    (hfuel : (write F cell items ++ tail).length ≤ fuel) :
    decode F fuel (write F cell items ++ tail) = (options items, none) := by
  -- each item takes at least one round, so the fuel is enough for what is left
  induction items generalizing fuel with
  | nil =>
      rcases htail with rfl | ⟨rest, rfl⟩
      · cases fuel <;> rfl
      · obtain ⟨fuel, rfl⟩ := Nat.exists_eq_add_one_of_ne_zero (Nat.ne_zero_of_lt hfuel)
        show decode F (fuel + 1) (F.stop :: rest) = _
        unfold decode
        rw [if_neg hstop, if_pos rfl]
        rfl
  | cons i items ih =>
      obtain ⟨hi, hok⟩ := List.forall_mem_cons.1 hitems
      cases i with
      | pad =>
          have hcons : write F cell (.pad :: items) ++ tail
              = F.pad :: (write F cell items ++ tail) := rfl
          rw [hcons] at hfuel ⊢
          obtain ⟨fuel, rfl⟩ := Nat.exists_eq_add_one_of_ne_zero (Nat.ne_zero_of_lt hfuel)
          unfold decode
          rw [if_pos rfl]
          exact ih hok (Nat.le_of_succ_le_succ hfuel)
      | option tag payload =>
          obtain ⟨hpad, hend, hlen⟩ := hi
          have hcons : write F cell (.option tag payload :: items) ++ tail
              = tag :: cell payload.length :: (payload ++ (write F cell items ++ tail)) := by
            unfold write
            rw [List.flatMap_cons, List.append_assoc]
            rfl
          rw [hcons] at hfuel ⊢
          obtain ⟨fuel, rfl⟩ := Nat.exists_eq_add_one_of_ne_zero (Nat.ne_zero_of_lt hfuel)
          rw [List.length_cons, List.length_cons, List.length_append] at hfuel
          have hrest : decode F fuel (write F cell items ++ tail) = (options items, none) :=
            ih hok (by omega)
          unfold decode
          rw [if_neg hpad, if_neg hend]
          simp only [hlen, List.length_append, Nat.le_add_right, if_true, List.drop_left,
            List.take_left]
          rw [hrest]
          rfl

end Tlv
