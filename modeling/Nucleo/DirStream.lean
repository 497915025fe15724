/-
# Positions in a directory stream

A stream keeps its position twice, in `loc` and in the cursor of the library.  Over a
library that lists a fixed directory (`Lists`) the two agree after every sequence of calls
that returns (`Passed`, `execDirCalls_eq`), but `seekdir` reaches only two positions.  To go back
it rewinds, and then starts its loop from the position before the rewinding, so the loop does
not run.  To go forward it reads into a `struct dirent` of its own, which has no room for a
name.
-/
import Nucleo.FatDir

namespace Nucleo

namespace Fat

open Comp

/-! ## A library that lists a directory -/

/-- The library lists `names` in order, `At c` being the cursors with `c` entries before
them; at the end it gives an empty name, and a null pointer rewinds. -/
structure Lists {δ ψ : Type} (D : DirLib δ ψ) (names : List String) (At : ℕ → δ → ψ → Prop) :
    Prop where
  named : ∀ name ∈ names, name ≠ ""
  next : ∀ c dir lib, At c dir lib → ∀ h : c < names.length, ∃ fno dir' lib',
    D.fReaddir dir lib = ((.ok, fno), dir', lib') ∧ fno.fname = names[c] ∧ At (c + 1) dir' lib'
  stop : ∀ dir lib, At names.length dir lib → ∃ fno dir' lib',
    D.fReaddir dir lib = ((.ok, fno), dir', lib') ∧ fno.fname = "" ∧ At names.length dir' lib'
  rewind : ∀ c dir lib, At c dir lib → ∃ dir' lib',
    D.fRewind dir lib = (.ok, dir', lib') ∧ At 0 dir' lib'

/-- What a read at position `c` returns. -/
def entryAt (names : List String) (c : ℕ) : Option Dirent :=
  names[c]?.map fun name => ⟨c + 1, storedName name⟩

section Stream

variable {χ κ δ ψ : Type} {D : DirLib δ ψ} {names : List String} {At : ℕ → δ → ψ → Prop}
  {w : World χ (FatFs κ δ ψ)} {i : Fin openMax} {d : Dirstream δ}

/-! ## The calls on an open stream -/

/-- The entry `i` holds the stream `d`, whose descriptor is one of a directory. -/
structure StreamAt (w : World χ (FatFs κ δ ψ)) (i : Fin openMax) (d : Dirstream δ) : Prop where
  object : (w.fat.pool i).object = .dir d
  fd : ∃ k : Fin openMax, d.fd = (k.val : ℤ) ∧ (w.files k).stat.fileType = .dir

/-- The world with another stream in the entry `i` and another state of the library. -/
def setStream (w : World χ (FatFs κ δ ψ)) (i : Fin openMax) (d : Dirstream δ) (lib : ψ) :
    World χ (FatFs κ δ ψ) :=
  { w with fat := ⟨Function.update w.fat.pool i ⟨(w.fat.pool i).allocated, .dir d⟩, lib⟩ }

@[simp] theorem setStream_lib (lib : ψ) : (setStream w i d lib).fat.lib = lib := rfl

/-- Of two states of the stream the second counts. -/
theorem setStream_setStream (d' : Dirstream δ) (lib lib' : ψ) :
    setStream (setStream w i d lib) i d' lib' = setStream w i d' lib' := by
  simp only [setStream, Function.update_idem, Function.update_self]

/-- The stream stays where it is. -/
theorem StreamAt.setStream (h : StreamAt w i d) (d' : Dirstream δ) (hfd : d'.fd = d.fd) (lib : ψ) :
    StreamAt (setStream w i d' lib) i d' := by
  refine ⟨?_, ?_⟩
  · show (Function.update w.fat.pool i _ i).object = .dir d'
    rw [Function.update_self]
  · obtain ⟨k, hk, hdir⟩ := h.fd
    exact ⟨k, hfd.trans hk, hdir⟩

/-- The pointer leads to the stream. -/
theorem dirOf_eq (h : StreamAt w i d) : dirOf (.dir i) w = .ok ((i, d), w) :=
  dirOf_of_object h.object

/-- It is one of a directory. -/
theorem isDir_eq (h : StreamAt w i d) : isDir (.dir i) w = .ok (true, w) := by
  obtain ⟨k, hk, hdir⟩ := h.fd
  unfold isDir
  rw [bind_of_ok (dirOf_eq h)]
  dsimp only
  rw [hk, fileStructGet_coe, pure_bind]
  show (if (w.files k).stat.fileType = .dir then pure true else fail .ENOTDIR false :
    FatSys χ κ δ ψ Bool) w = _
  rw [if_pos hdir]
  rfl

/-- The stream is put back. -/
theorem setDir_eq (d' : Dirstream δ) :
    (setDir i d' : FatSys χ κ δ ψ Unit) w = .ok ((), setStream w i d' w.fat.lib) := rfl

/-- A call of the library is one on the stream. -/
theorem callDir_eq {α : Type} (h : StreamAt w i d) {call : δ → ψ → α × δ × ψ} {a : α} {dir : δ}
    {lib : ψ} (hcall : call d.ffdir w.fat.lib = (a, dir, lib)) :
    callDir (.dir i) call w = .ok (a, setStream w i { d with ffdir := dir } lib) := by
  unfold callDir
  rw [bind_of_ok (dirOf_eq h)]
  dsimp only
  rw [bind_of_ok (show (get : FatSys χ κ δ ψ _) w = .ok (w, w) from rfl), hcall]
  rfl

/-- `telldir` returns the position. -/
theorem telldir_eq (h : StreamAt w i d) : fatfsTelldir (.dir i) w = .ok (d.loc, w) := by
  unfold fatfsTelldir
  rw [bind_of_ok (isDir_eq h), if_pos rfl, bind_of_ok (dirOf_eq h)]
  rfl

/-! ## Entries passed -/

/-- The stream in the entry `i` has passed `c` of the entries, by both of its counts. -/
structure Passed (names : List String) (At : ℕ → δ → ψ → Prop) (w : World χ (FatFs κ δ ψ))
    (i : Fin openMax) (c : ℕ) : Prop where
  le : c ≤ names.length
  stream : ∃ d, StreamAt w i d ∧ d.loc = c ∧ At c d.ffdir w.fat.lib

variable {c : ℕ}

/-- **`telldir` is the number of entries passed.** -/
theorem Passed.telldir (h : Passed names At w i c) :
    fatfsTelldir (.dir i) w = .ok ((c : ℤ), w) := by
  obtain ⟨d, hd, hloc, -⟩ := h.stream
  rw [telldir_eq hd, hloc]

/-! ### One call -/

/-- One entry further, if there is one. -/
def advance (names : List String) (c : ℕ) : ℕ := min (c + 1) names.length

/-- **A read** with room for a name returns the entry at the position and moves past it; at the
end it returns none and stays. -/
theorem Passed.readdirR (hL : Lists D names At) (h : Passed names At w i c) {room : ℕ}
    (hroom : nameMax + 1 ≤ room ∨ c = names.length) :
    ∃ w', fatfsReaddirR D (.dir i) room w = .ok ((0, entryAt names c), w') ∧
      Passed names At w' i (advance names c) := by
  obtain ⟨d, hd, hloc, hat⟩ := h.stream
  have hle : c ≤ names.length := h.le
  unfold fatfsReaddirR entryAt advance
  rw [bind_of_ok (isDir_eq hd), if_pos rfl]
  -- before the end the library has a name; at the end it gives the empty one
  by_cases hlt : c < names.length
  · obtain ⟨fno, dir, lib, hread, hname, hat'⟩ := hL.next c d.ffdir w.fat.lib hat hlt
    have hd' := hd.setStream { d with ffdir := dir } rfl lib
    have hne : fno.fname ≠ "" := hname ▸ hL.named _ (List.getElem_mem hlt)
    rw [bind_of_ok (callDir_eq hd hread)]
    dsimp only
    rw [if_neg (by simp), if_neg hne, bind_of_ok (dirOf_eq hd')]
    dsimp only
    rw [bind_of_ok (setDir_eq _), setStream_setStream, if_neg (by omega),
      List.getElem?_eq_getElem hlt, hname, hloc]
    refine ⟨_, rfl, by omega, { d with loc := d.loc + 1, ffdir := dir }, ?_, ?_, ?_⟩
    · rw [hloc]
      exact hd.setStream { d with loc := (c : ℤ) + 1, ffdir := dir } rfl lib
    · show d.loc + 1 = ((min (c + 1) names.length : ℕ) : ℤ)
      omega
    · rw [Nat.min_eq_left hlt]
      exact hat'
  · have hend : c = names.length := by omega
    subst hend
    obtain ⟨fno, dir, lib, hread, hname, hat'⟩ := hL.stop d.ffdir w.fat.lib hat
    have hd' := hd.setStream { d with ffdir := dir } rfl lib
    rw [bind_of_ok (callDir_eq hd hread)]
    dsimp only
    rw [if_neg (by simp), if_pos hname, List.getElem?_eq_none le_rfl]
    refine ⟨_, rfl, by omega, { d with ffdir := dir }, hd', ?_, ?_⟩
    · show d.loc = ((min (names.length + 1) names.length : ℕ) : ℤ)
      omega
    · rw [Nat.min_eq_right (Nat.le_succ _)]
      exact hat'

/-- A read without room for a name stores behind the entry, unless there is none to read. -/
theorem Passed.readdirR_overrun (hL : Lists D names At) (h : Passed names At w i c)
    (hlt : c < names.length) : fatfsReaddirR D (.dir i) direntRoom w = .error .overrun := by
  obtain ⟨d, hd, -, hat⟩ := h.stream
  obtain ⟨fno, dir, lib, hread, hname, -⟩ := hL.next c d.ffdir w.fat.lib hat hlt
  have hd' := hd.setStream { d with ffdir := dir } rfl lib
  have hne : fno.fname ≠ "" := hname ▸ hL.named _ (List.getElem_mem hlt)
  unfold fatfsReaddirR
  rw [bind_of_ok (isDir_eq hd), if_pos rfl, bind_of_ok (callDir_eq hd hread)]
  dsimp only
  rw [if_neg (by simp), if_neg hne, bind_of_ok (dirOf_eq hd')]
  dsimp only
  rw [bind_of_ok (setDir_eq _), if_pos (by decide)]
  rfl

/-- **`readdir` returns the next entry**. -/
theorem Passed.readdir (hL : Lists D names At) (h : Passed names At w i c) :
    ∃ w', fatfsReaddir D (.dir i) w = .ok (entryAt names c, w') ∧
      Passed names At w' i (advance names c) := by
  obtain ⟨d, hd, -, -⟩ := h.stream
  obtain ⟨w', hread, hpassed⟩ := h.readdirR hL (Or.inl le_rfl)
  refine ⟨w', ?_, hpassed⟩
  unfold fatfsReaddir
  rw [bind_of_ok (isDir_eq hd), if_pos rfl, bind_of_ok hread]
  rfl

/-- `rewinddir` goes back to the first one. -/
theorem Passed.rewinddir (hL : Lists D names At) (h : Passed names At w i c) :
    ∃ w', fatfsRewinddir D (.dir i) w = .ok ((), w') ∧ Passed names At w' i 0 := by
  obtain ⟨d, hd, -, hat⟩ := h.stream
  obtain ⟨dir, lib, hrew, hat'⟩ := hL.rewind c d.ffdir w.fat.lib hat
  have hd' := hd.setStream { d with ffdir := dir } rfl lib
  unfold fatfsRewinddir
  rw [bind_of_ok (isDir_eq hd), if_pos rfl, bind_of_ok (callDir_eq hd hrew), if_pos rfl,
    bind_of_ok (dirOf_eq hd')]
  dsimp only
  rw [setDir_eq, setStream_setStream]
  exact ⟨_, rfl, Nat.zero_le _, _, hd.setStream { d with loc := 0, ffdir := dir } rfl lib, rfl, hat'⟩

/-- The position that `seekdir(loc)` reaches from `c`; none when it stores behind its own
`struct dirent`. -/
def sought (names : List String) (c : ℕ) (loc : ℤ) : Option ℕ :=
  if loc < c then some 0
  else if loc = c ∨ c = names.length then some c
  else none

/-- **What `seekdir` does**: backward it reaches the beginning, it stays where it is, and
forward it reads nothing, at the end, or stores where it must not. -/
theorem Passed.seekdir (hL : Lists D names At) (h : Passed names At w i c) (loc : ℤ) :
    match sought names c loc with
    | some c' => ∃ w', fatfsSeekdir D (.dir i) loc w = .ok ((), w') ∧ Passed names At w' i c'
    | none => fatfsSeekdir D (.dir i) loc w = .error .overrun := by
  obtain ⟨d, hd, -, -⟩ := h.stream
  unfold fatfsSeekdir sought
  rw [bind_of_ok (isDir_eq hd), if_pos rfl, bind_of_ok h.telldir]
  by_cases hback : loc < c
  · obtain ⟨w', hrew, hpassed⟩ := h.rewinddir hL
    have hzero : (loc - c).toNat = 0 := by omega
    rw [if_pos hback, if_pos hback, bind_of_ok hrew, hzero]
    exact ⟨w', rfl, hpassed⟩
  rw [if_neg hback, if_neg hback]
  by_cases hhere : loc = c
  · have hzero : (loc - c).toNat = 0 := by omega
    rw [if_pos (Or.inl hhere), hzero]
    exact ⟨w, rfl, h⟩
  -- the loop runs, and its first round decides
  have hforward : loc > c := by omega
  obtain ⟨rounds, hrounds⟩ : ∃ rounds, (loc - c).toNat = rounds + 1 :=
    ⟨(loc - c).toNat - 1, by omega⟩
  rw [hrounds, pure_bind]
  unfold seekLoop
  rw [if_pos hforward]
  by_cases hend : c = names.length
  · obtain ⟨w', hread, hpassed⟩ := h.readdirR hL (Or.inr hend : nameMax + 1 ≤ direntRoom ∨ c = names.length)
    have hnone : entryAt names c = none := by
      unfold entryAt
      rw [List.getElem?_eq_none (by omega)]
      rfl
    have hadv : advance names c = c := by
      unfold advance
      omega
    rw [if_pos (Or.inr hend), bind_of_ok hread]
    dsimp only
    rw [if_pos (Or.inl hnone)]
    exact ⟨w', rfl, hadv ▸ hpassed⟩
  · have hlt : c < names.length := lt_of_le_of_ne h.le hend
    rw [if_neg (not_or.2 ⟨hhere, hend⟩)]
    exact bind_of_error (h.readdirR_overrun hL hlt)

/-! ## Sequences of calls -/

/-- The calls on a stream. -/
inductive DirCall
  | readdir | readdirR | rewinddir | telldir
  | seekdir (loc : ℤ)
  deriving DecidableEq, Repr

/-- A call, without what it returns.  The caller of `readdir_r` provides the room for a name that
is asked for. -/
def DirCall.exec (D : DirLib δ ψ) (dirp : Opaque) : DirCall → FatSys χ κ δ ψ Unit
  | .readdir => do let _ ← fatfsReaddir D dirp
  | .readdirR => do let _ ← fatfsReaddirR D dirp (nameMax + 1)
  | .rewinddir => fatfsRewinddir D dirp
  | .telldir => do let _ ← fatfsTelldir dirp
  | .seekdir loc => fatfsSeekdir D dirp loc

/-- The calls of a list, in order. -/
def execDirCalls (D : DirLib δ ψ) (dirp : Opaque) : List DirCall → FatSys χ κ δ ψ Unit
  | [] => pure ()
  | call :: calls => do
      call.exec D dirp
      execDirCalls D dirp calls

/-- The position after a call, none when it stores behind an object. -/
def DirCall.position (names : List String) (c : ℕ) : DirCall → Option ℕ
  | .readdir | .readdirR => some (advance names c)
  | .rewinddir => some 0
  | .telldir => some c
  | .seekdir loc => sought names c loc

/-- The position after a sequence of calls. -/
def positionAfter (names : List String) : ℕ → List DirCall → Option ℕ
  | c, [] => some c
  | c, call :: calls => (call.position names c).bind fun c' => positionAfter names c' calls

/-- The entries that the next `m` calls of `readdir` return. -/
def readEntries (D : DirLib δ ψ) (dirp : Opaque) : ℕ → FatSys χ κ δ ψ (List (Option Dirent))
  | 0 => pure []
  | m + 1 => do
      let entry ← fatfsReaddir D dirp
      let rest ← readEntries D dirp m
      pure (entry :: rest)

/-- Every call goes where its position says. -/
theorem Passed.exec (hL : Lists D names At) (h : Passed names At w i c) (call : DirCall) :
    match call.position names c with
    | some c' => ∃ w', call.exec D (.dir i) w = .ok ((), w') ∧ Passed names At w' i c'
    | none => call.exec D (.dir i) w = .error .overrun := by
  cases call with
  | readdir =>
    obtain ⟨w', hret, hpassed⟩ := h.readdir hL
    exact ⟨w', bind_of_ok hret, hpassed⟩
  | readdirR =>
    obtain ⟨w', hret, hpassed⟩ := h.readdirR hL (Or.inl le_rfl)
    exact ⟨w', bind_of_ok hret, hpassed⟩
  | rewinddir => exact h.rewinddir hL
  | telldir => exact ⟨w, bind_of_ok h.telldir, h⟩
  | seekdir loc => exact h.seekdir hL loc

/-- **Both counts agree after every sequence of calls** that stores behind no object. -/
theorem Passed.execDirCalls (hL : Lists D names At) (h : Passed names At w i c)
    (calls : List DirCall) :
    match positionAfter names c calls with
    | some c' => ∃ w', execDirCalls D (.dir i) calls w = .ok ((), w') ∧ Passed names At w' i c'
    | none => Fat.execDirCalls D (.dir i) calls w = .error .overrun := by
  induction calls generalizing w c with
  | nil => exact ⟨w, rfl, h⟩
  | cons call calls ih =>
    have hcall := h.exec hL call
    unfold positionAfter Fat.execDirCalls
    cases hpos : call.position names c with
    | none =>
      rw [hpos] at hcall
      exact bind_of_error hcall
    | some c₁ =>
      rw [hpos] at hcall
      obtain ⟨w₁, hret, h₁⟩ := hcall
      rw [bind_of_ok hret]
      exact ih h₁

/-- From a position the reads return the entries that remain, in order. -/
theorem Passed.readEntries (hL : Lists D names At) (h : Passed names At w i c) (m : ℕ) :
    ∃ w', readEntries D (.dir i) m w =
      .ok ((List.range m).map fun j => entryAt names (c + j), w') := by
  induction m generalizing w c with
  | zero => exact ⟨w, rfl⟩
  | succ m ih =>
    obtain ⟨w₁, hret, h₁⟩ := h.readdir hL
    obtain ⟨w₂, hrest⟩ := ih h₁
    refine ⟨w₂, ?_⟩
    have hlist : (List.range (m + 1)).map (fun j => entryAt names (c + j)) =
        entryAt names c :: (List.range m).map fun j => entryAt names (advance names c + j) := by
      rw [List.range_succ_eq_map, List.map_cons, List.map_map]
      refine congrArg (List.cons _) (List.map_congr_left fun j _ => ?_)
      show entryAt names (c + (j + 1)) = entryAt names (advance names c + j)
      unfold advance entryAt
      by_cases hlt : c < names.length
      · have heq : c + (j + 1) = min (c + 1) names.length + j := by omega
        rw [heq]
      · -- past the end every position reads as none
        rw [List.getElem?_eq_none (by omega), List.getElem?_eq_none (by omega)]
        rfl
    rw [hlist]
    unfold Fat.readEntries
    rw [bind_of_ok hret, bind_of_ok hrest]
    rfl

/-! ## Which positions `seekdir` reaches -/

/-- `seekdir(k)` makes `telldir` return `k` and the reads after it return the entries from
`k` on. -/
def Seeks (D : DirLib δ ψ) (names : List String) (dirp : Opaque) (w : World χ (FatFs κ δ ψ))
    (k : ℕ) : Prop :=
  ∃ w', fatfsSeekdir D dirp k w = .ok ((), w') ∧
    fatfsTelldir dirp w' = .ok ((k : ℤ), w') ∧
    ∀ m, (readEntries D dirp m w').map Prod.fst =
      .ok ((List.range m).map fun j => entryAt names (k + j))

theorem Passed.seeks_iff (hL : Lists D names At) (h : Passed names At w i c) {k : ℕ}
    (hk : k ≤ names.length) : Seeks D names (.dir i) w k ↔ k = 0 ∨ k = c := by
  have hseek := h.seekdir hL k
  constructor
  · rintro ⟨w', hseek', htell, -⟩
    unfold sought at hseek
    -- backward the stream is rewound only; forward `readdir_r` overruns
    by_cases hback : (k : ℤ) < c
    · rw [if_pos hback] at hseek
      obtain ⟨w'', hret, hpassed⟩ := hseek
      rw [hret] at hseek'
      cases hseek'
      rw [hpassed.telldir] at htell
      have heq : ((0 : ℕ) : ℤ) = k := congrArg Prod.fst (Except.ok.inj htell)
      exact Or.inl (by omega)
    · rw [if_neg hback] at hseek
      by_cases hstay : (k : ℤ) = c ∨ c = names.length
      · exact Or.inr (by omega)
      · rw [if_neg hstay] at hseek
        dsimp only at hseek
        rw [hseek] at hseek'
        cases hseek'
  · intro hcond
    have heq : sought names c k = some k := by
      unfold sought
      split_ifs
      · exact congrArg some (by omega)
      · exact congrArg some (by omega)
      · omega
    rw [heq] at hseek
    obtain ⟨w', hret, hpassed⟩ := hseek
    refine ⟨w', hret, hpassed.telldir, fun m => ?_⟩
    obtain ⟨w'', hread⟩ := hpassed.readEntries hL m
    rw [hread]
    rfl

/-- The calls return, and a `seekdir(k)` behind them does what it should. -/
def SeeksAfter (D : DirLib δ ψ) (names : List String) (dirp : Opaque) (w : World χ (FatFs κ δ ψ))
    (calls : List DirCall) (k : ℕ) : Prop :=
  ∃ w', Fat.execDirCalls D dirp calls w = .ok ((), w') ∧ Seeks D names dirp w' k

/-- **Where `seekdir` can go.**  After every sequence of calls on a freshly opened stream that
returns, `telldir` is the number of entries passed.  The calls return and `seekdir(k)` goes to
the entry `k` of the directory exactly if no call before was a `seekdir` forward to an entry, and
`k` is zero or the position. -/
theorem seekdir_iff (hL : Lists D names At) (hopen : Passed names At w i 0)
    (calls : List DirCall) {k : ℕ} (hk : k ≤ names.length) :
    (∀ w', Fat.execDirCalls D (.dir i) calls w = .ok ((), w') →
      ∃ c, positionAfter names 0 calls = some c ∧ Passed names At w' i c ∧
        fatfsTelldir (.dir i) w' = .ok ((c : ℤ), w')) ∧
    (SeeksAfter D names (.dir i) w calls k ↔
      ∃ c, positionAfter names 0 calls = some c ∧ (k = 0 ∨ k = c)) := by
  have hexec := hopen.execDirCalls hL calls
  cases hpos : positionAfter names 0 calls with
  | none =>
    rw [hpos] at hexec
    constructor
    · intro w' hret
      rw [hexec] at hret
      cases hret
    · constructor
      · rintro ⟨w', hret, -⟩
        rw [hexec] at hret
        cases hret
      · rintro ⟨c, hc, -⟩
        cases hc
  | some c =>
    rw [hpos] at hexec
    obtain ⟨w', hret, hpassed⟩ := hexec
    constructor
    · intro w'' hret'
      rw [hret] at hret'
      cases hret'
      exact ⟨c, rfl, hpassed, hpassed.telldir⟩
    · constructor
      · rintro ⟨w'', hret', hseeks⟩
        rw [hret] at hret'
        cases hret'
        exact ⟨c, rfl, (hpassed.seeks_iff hL hk).1 hseeks⟩
      · rintro ⟨c', hc', hcond⟩
        cases hc'
        exact ⟨w', hret, (hpassed.seeks_iff hL hk).2 hcond⟩

end Stream

/-! ## A directory of two entries -/

/-- A directory with two entries. -/
def twoNames : List String := ["A.TXT", "B.TXT"]

/-- A library whose cursor is the number of entries passed. -/
def twoNamesLib : DirLib ℕ Unit where
  fReaddir := fun c lib =>
    ((.ok, ⟨0, false, false, twoNames[c]?.getD ""⟩), min (c + 1) twoNames.length, lib)
  fRewind := fun _ lib => (.ok, 0, lib)

/-- It is listed. -/
theorem lists_twoNames : Lists twoNamesLib twoNames fun c dir _ => dir = c where
  named := by decide
  next := by
    rintro c dir lib rfl h
    refine ⟨_, _, _, rfl, ?_, Nat.min_eq_left h⟩
    show twoNames[dir]?.getD "" = twoNames[dir]
    rw [List.getElem?_eq_getElem h, Option.getD_some]
  stop := by
    rintro dir lib rfl
    exact ⟨_, _, _, rfl, rfl, rfl⟩
  rewind := by
    rintro c dir lib rfl
    exact ⟨_, _, rfl, rfl⟩

/-- Descriptor 3 is that of the directory, its stream in the first entry of the pool. -/
def twoNamesOpen : World Unit (FatFs Unit ℕ Unit) where
  files := fun d =>
    if d = 3 then { Fd.zero with isallocated := true, fd := 3, stat := ⟨.dir, 0o777, 0, 0⟩,
                                 opaquePtr := .dir 0 }
    else Fd.zero
  sockets := fun _ => ⟨-1, 0, .unspec, .other, 0, .none, ⟨.unspec, 0, 0⟩, ⟨.unspec, 0, 0⟩, false,
    timespecZero, timespecZero, none, none⟩
  errno := none
  chip := ()
  fat := ⟨fun i => if i = 0 then ⟨true, .dir ⟨3, 0, 0⟩⟩ else ⟨false, .zero⟩, ()⟩

theorem passed_twoNamesOpen : Passed twoNames (fun c dir _ => dir = c) twoNamesOpen 0 0 :=
  ⟨Nat.zero_le _, ⟨3, 0, 0⟩, ⟨rfl, 3, rfl, rfl⟩, rfl, rfl⟩

/-- From the end and back to the beginning, and then to where it is, `seekdir` does what it
says. -/
theorem seekdir_iff_twoNames :
    SeeksAfter twoNamesLib twoNames (.dir 0) twoNamesOpen [.readdir, .readdirR] 0 ∧
      SeeksAfter twoNamesLib twoNames (.dir 0) twoNamesOpen
        [.readdir, .readdirR, .seekdir 0, .readdir] 1 :=
  ⟨(seekdir_iff lists_twoNames passed_twoNamesOpen [.readdir, .readdirR] (by decide)).2.2
      ⟨2, rfl, Or.inl rfl⟩,
    (seekdir_iff lists_twoNames passed_twoNamesOpen [.readdir, .readdirR, .seekdir 0, .readdir]
      (by decide)).2.2 ⟨1, rfl, Or.inr rfl⟩⟩

/-- At the end of the directory, `seekdir(1)` goes to the beginning; at the beginning it stores
behind its own `struct dirent`. -/
theorem not_seeks_twoNames :
    (∃ w w', Fat.execDirCalls twoNamesLib (.dir 0) [.readdir, .readdir] twoNamesOpen = .ok ((), w) ∧
      fatfsSeekdir twoNamesLib (.dir 0) 1 w = .ok ((), w') ∧
      fatfsTelldir (.dir 0) w' = .ok (0, w') ∧
      ¬ Seeks twoNamesLib twoNames (.dir 0) w 1) ∧
    fatfsSeekdir twoNamesLib (.dir 0) 1 twoNamesOpen = .error .overrun := by
  obtain ⟨w₁, hret₁, h₁⟩ := passed_twoNamesOpen.readdir lists_twoNames
  obtain ⟨w₂, hret₂, h₂⟩ := h₁.readdir lists_twoNames
  obtain ⟨w', hseek, h'⟩ := h₂.seekdir lists_twoNames 1
  refine ⟨⟨w₂, w', ?_, hseek, h'.telldir, fun h => ?_⟩,
    passed_twoNamesOpen.seekdir lists_twoNames 1⟩
  · exact (bind_of_ok (bind_of_ok hret₁)).trans ((bind_of_ok (bind_of_ok hret₂)).trans rfl)
  · exact absurd ((h₂.seeks_iff lists_twoNames (by decide)).mp h) (by decide)

end Fat

end Nucleo
