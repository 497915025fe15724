/-
# Waiting for descriptors

`select.c` on top of the part of `poll.c` that it uses.  What a call finds is an input: the
clock readings and, for each polling pass, what the drivers answer.

A pass of `pselect_tentative` edits the three sets in place; `pselect` puts copies back
between two passes.  So every pass starts from the sets that the caller passed
(`pselectLoop_eq`), and what is returned is the work of the first pass that decides.
-/
import Nucleo.Lib.BitWords
import Nucleo.Lib.Retry
import Nucleo.TimespecOrder
import Nucleo.W5100Socket

namespace Nucleo

namespace Select

open W5100

/-! ## `fd_set` -/

/-- The words of an `fd_set`; `FD_SETSIZE` is `OPEN_MAX`. -/
def fdSetWords : ℕ := (openMax + 8 * 4 - 1) / (8 * 4)

/-- `fd_set`. -/
structure FdSet where
  mask : Fin fdSetWords → BitVec 32
  deriving DecidableEq

/-- The descriptors that an `fd_set` can hold. -/
def inFdSet (fd : ℤ) : Option (Fin openMax) :=
  if h : 0 ≤ fd ∧ fd < openMax then some ⟨fd.toNat, by omega⟩ else none

/-- `get_fd_set_mask_idx`. -/
def getFdSetMaskIdx (fd : Fin openMax) : Fin fdSetWords :=
  ⟨fd.val / 32, by have := fd.isLt; unfold fdSetWords openMax at *; omega⟩

/-- `get_fd_set_mask_bitmask`. -/
def getFdSetMaskBitmask (fd : Fin openMax) : BitVec 32 := 1#32 <<< (fd.val % 32)

/-- `FD_CLR`; `none` is the null pointer. -/
def fdClr (fd : ℤ) (fdset : Option FdSet) : Option FdSet :=
  match inFdSet fd, fdset with
  | some d, some s =>
      some ⟨Function.update s.mask (getFdSetMaskIdx d)
        (s.mask (getFdSetMaskIdx d) &&& ~~~getFdSetMaskBitmask d)⟩
  | _, s => s

/-- `FD_ISSET`. -/
def fdIsset (fd : ℤ) (fdset : Option FdSet) : Bool :=
  match inFdSet fd, fdset with
  | some d, some s => s.mask (getFdSetMaskIdx d) &&& getFdSetMaskBitmask d ≠ 0
  | _, _ => false

/-- `FD_SET`. -/
def fdSet (fd : ℤ) (fdset : Option FdSet) : Option FdSet :=
  match inFdSet fd, fdset with
  | some d, some s =>
      some ⟨Function.update s.mask (getFdSetMaskIdx d)
        (s.mask (getFdSetMaskIdx d) ||| getFdSetMaskBitmask d)⟩
  | _, s => s

/-- `FD_ZERO`. -/
def fdZero (fdset : Option FdSet) : Option FdSet := fdset.map fun _ => ⟨fun _ => 0⟩

/-- The bits of a set, those behind `FD_SETSIZE` too. -/
def fdBit (fdset : Option FdSet) (i : ℕ) : Bool :=
  match fdset with
  | some s => BitWords.bit s.mask i
  | none => false

section Bits

variable (m : ℕ) (fdset : Option FdSet)

/-! ### Single bits -/

/-- A descriptor below `OPEN_MAX` is in a set. -/
theorem inFdSet_of_lt {m : ℕ} (h : m < openMax) : inFdSet m = some ⟨m, h⟩ := by
  unfold inFdSet
  rw [dif_pos (by omega)]
  rfl

/-- Another one is not. -/
theorem inFdSet_of_le {m : ℕ} (h : openMax ≤ m) : inFdSet m = none := by
  unfold inFdSet
  rw [dif_neg (by omega)]

/-- A descriptor is the number of its bit. -/
theorem maskIdx_add (d : Fin openMax) :
    (getFdSetMaskIdx d).val * 32 + d.val % 32 = d.val := Nat.div_add_mod' d.val 32

/-- `FD_ISSET` reads the bit of a descriptor in range. -/
theorem fdIsset_eq : fdIsset m fdset = (decide (m < openMax) && fdBit fdset m) := by
  unfold fdIsset
  by_cases hm : m < openMax
  · rw [inFdSet_of_lt hm, decide_eq_true hm, Bool.true_and]
    cases fdset with
    | none => rfl
    | some s =>
        have hbit := BitWords.and_shiftLeft_ne_zero s.mask (getFdSetMaskIdx ⟨m, hm⟩)
          (Nat.mod_lt m (by decide : 0 < 32))
        rw [maskIdx_add ⟨m, hm⟩] at hbit
        exact (decide_eq_decide.2 hbit).trans (Bool.decide_coe _)
  · rw [inFdSet_of_le (Nat.not_lt.1 hm), decide_eq_false hm, Bool.false_and]

/-- `FD_CLR` clears the bit of a descriptor in range. -/
theorem fdBit_fdClr (i : ℕ) :
    fdBit (fdClr m fdset) i = (fdBit fdset i && !decide (i = m ∧ m < openMax)) := by
  unfold fdClr
  by_cases hm : m < openMax
  · rw [inFdSet_of_lt hm]
    cases fdset with
    | none => rfl
    | some s =>
        have hbit := BitWords.bit_clear s.mask (getFdSetMaskIdx ⟨m, hm⟩)
          (Nat.mod_lt m (by decide : 0 < 32)) i
        rw [maskIdx_add ⟨m, hm⟩] at hbit
        rw [show decide (i = m ∧ m < openMax) = decide (i = m) from
          decide_eq_decide.2 (and_iff_left hm)]
        exact hbit
  · rw [inFdSet_of_le (Nat.not_lt.1 hm), decide_eq_false (fun h => hm h.2), Bool.not_false,
      Bool.and_true]

/-- `FD_SET` sets the bit of a descriptor in range. -/
theorem fdBit_fdSet (i : ℕ) :
    fdBit (fdSet m fdset) i
      = (fdBit fdset i || decide (i = m ∧ m < openMax ∧ fdset.isSome = true)) := by
  unfold fdSet
  by_cases hm : m < openMax
  · rw [inFdSet_of_lt hm]
    cases fdset with
    | none => exact (decide_eq_false fun h => Bool.false_ne_true h.2.2).symm
    | some s =>
        have hbit := BitWords.bit_insert s.mask (getFdSetMaskIdx ⟨m, hm⟩)
          (Nat.mod_lt m (by decide : 0 < 32)) i
        rw [maskIdx_add ⟨m, hm⟩] at hbit
        rw [show decide (i = m ∧ m < openMax ∧ (some s).isSome = true) = decide (i = m) from
          decide_eq_decide.2 (and_iff_left ⟨hm, rfl⟩)]
        exact hbit
  · rw [inFdSet_of_le (Nat.not_lt.1 hm), decide_eq_false (fun h => hm h.2.1), Bool.or_false]

/-- `FD_ZERO` clears them all. -/
theorem fdBit_fdZero (i : ℕ) : fdBit (fdZero fdset) i = false := by
  cases fdset with
  | none => rfl
  | some s =>
      show BitWords.bit (fun _ => 0) i = false
      unfold BitWords.bit
      simp

/-- Clearing a bit keeps the pointer. -/
theorem isSome_fdClr : (fdClr m fdset).isSome = fdset.isSome := by
  unfold fdClr
  cases inFdSet m <;> cases fdset <;> rfl

/-- The bits determine a set. -/
theorem fdSet_ext {s t : Option FdSet} (hsome : s.isSome = t.isSome)
    (h : ∀ i, fdBit s i = fdBit t i) : s = t := by
  cases s with
  | none =>
      cases t with
      | none => rfl
      | some t => cases hsome
  | some s =>
      cases t with
      | none => cases hsome
      | some t =>
          obtain ⟨mask⟩ := s
          obtain ⟨mask'⟩ := t
          have heq : mask = mask' := BitWords.ext_bit h
          rw [heq]

end Bits

/-! ## `poll` -/

/-- `POLLRDBAND`. -/
def pollRdband : BitVec 16 := 0x0004
/-- `POLLPRI`. -/
def pollPri : BitVec 16 := 0x0008
/-- `POLLWRBAND`. -/
def pollWrband : BitVec 16 := 0x0040

/-- `struct pollfd`. -/
structure Pollfd where
  fd : ℤ
  events : BitVec 16
  revents : BitVec 16
  deriving DecidableEq, Repr

/-- What the `poll` functions of the drivers return; `none` where there is no file structure
or no such function. -/
abbrev Drivers := ℤ → Option (BitVec 16)

/-- What `poll_one` finds for a descriptor. -/
def pollAnswer (drivers : Drivers) (fd : ℤ) : BitVec 16 :=
  if fd < 0 then 0
  else
    match drivers fd with
    | none => pollNval
    | some revents => if revents = -1 then pollNval else revents

/-- `poll_one`: the value returned and the structure as it is left.  A negative answer of a
driver other than -1 leaves `p->revents` as it was. -/
def pollOne (drivers : Drivers) (p : Pollfd) : BitVec 16 × Pollfd :=
  let revents := pollAnswer drivers p.fd
  if 0 ≤ revents.toInt then
    let events := p.events ||| (pollHup ||| pollErr ||| pollNval)
    let revents := revents &&& events
    (revents, { p with revents := revents })
  else (revents, p)

/-- The loop of `poll_tentative`, with the files that are ready so far. -/
def pollTentativeLoop (drivers : Drivers) : List Pollfd → ℤ → ℤ × List Pollfd
  | [], nfilesReady => (nfilesReady, [])
  | p :: fds, nfilesReady =>
      let r := pollOne drivers p
      if r.1 = -1 then (-1, r.2 :: fds)
      else
        let rest := pollTentativeLoop drivers fds
          (if r.1.toInt > 0 then nfilesReady + 1 else nfilesReady)
        (rest.1, r.2 :: rest.2)

/-- `poll_tentative`, which is `poll` with a timeout of 0. -/
def pollTentative (drivers : Drivers) (fds : List Pollfd) : ℤ × List Pollfd :=
  pollTentativeLoop drivers fds 0

/-- No answer is -1. -/
theorem pollAnswer_ne (drivers : Drivers) (fd : ℤ) : pollAnswer drivers fd ≠ -1 := by
  unfold pollAnswer
  split_ifs with hneg
  · decide
  · cases drivers fd with
    | none => decide
    | some revents =>
        dsimp only
        split_ifs with h
        · decide
        · exact h

/-- `poll_one` never returns -1. -/
theorem pollOne_ne (drivers : Drivers) (p : Pollfd) : (pollOne drivers p).1 ≠ -1 := by
  unfold pollOne
  dsimp only
  split_ifs with hpos
  · intro h
    -- the sign bit of a non-negative answer is not set
    have hand := congrArg BitVec.msb h
    rw [BitVec.msb_and, BitVec.msb_eq_toInt, decide_eq_false (by omega), Bool.false_and] at hand
    exact absurd hand (by decide)
  · exact pollAnswer_ne drivers p.fd

/-- Polling one descriptor. -/
theorem pollTentative_singleton (drivers : Drivers) (p : Pollfd) :
    pollTentative drivers [p]
      = (if (pollOne drivers p).1.toInt > 0 then 1 else 0, [(pollOne drivers p).2]) := by
  unfold pollTentative pollTentativeLoop
  dsimp only
  rw [if_neg (pollOne_ne drivers p)]
  rfl

/-! ## `pselect` -/

/-- The three sets of `pselect`. -/
inductive Kind
  | readfds | writefds | errorfds
  deriving DecidableEq, Repr

/-- What the three pointers point to. -/
abbrev Sets := Kind → Option FdSet

/-- A descriptor is in one of the sets. -/
def issetAny (fd : ℤ) (s : Sets) : Bool :=
  fdIsset fd (s .readfds) || fdIsset fd (s .writefds) || fdIsset fd (s .errorfds)

/-- The events that `pselect_one` asks for. -/
def selectEvents : BitVec 16 :=
  pollIn ||| pollRdnorm ||| pollRdband ||| pollPri ||| pollOut ||| pollWrnorm ||| pollWrband |||
    pollErr ||| pollHup ||| pollNval

/-- The events that leave a descriptor in a set. -/
def wanted : Kind → BitVec 16
  | .readfds => pollIn ||| pollRdnorm ||| pollErr ||| pollHup
  | .writefds => pollOut ||| pollWrnorm ||| pollErr ||| pollHup
  | .errorfds => pollRdband ||| pollWrband ||| pollPri

/-! ### A pass -/

/-- What a polling pass finds: the answers of the drivers, and what `p.revents` of
`pselect_one` holds before the descriptor is polled. -/
structure Pass where
  drivers : Drivers
  junk : ℤ → BitVec 16

/-- The call of `poll` in `pselect_one`. -/
def Pass.poll (p : Pass) (fd : ℤ) : ℤ × List Pollfd :=
  pollTentative p.drivers [⟨fd, selectEvents, p.junk fd⟩]

/-- `p.revents` after the call. -/
def Pass.revents (p : Pass) (fd : ℤ) : BitVec 16 :=
  ((p.poll fd).2.map Pollfd.revents).headD 0

/-- What a function of `select.c` returns, stores in `errno` and leaves in the sets. -/
structure Result where
  ret : ℤ
  errno : Option Errno
  sets : Sets

/-- The three conditional `FD_CLR` of `pselect_one`. -/
def clearUnready (p : Pass) (fd : ℤ) (s : Sets) : Sets := fun k =>
  if p.revents fd &&& wanted k = 0 then fdClr fd (s k) else s k

/-- `pselect_one`. -/
def pselectOne (p : Pass) (fd : ℤ) (s : Sets) : Result :=
  if issetAny fd s then
    if (p.poll fd).1 = -1 ∨ p.revents fd &&& pollNval ≠ 0 then ⟨-1, some .EBADF, s⟩
    else
      let s := clearUnready p fd s
      if issetAny fd s then ⟨1, none, s⟩ else ⟨0, none, s⟩
  else ⟨0, none, s⟩

/-- The loop of `pselect_tentative` over the given number of descriptors. -/
def pselectTentativeLoop (p : Pass) : ℕ → ℤ → ℤ → Sets → Result
  | 0, _, ret, s => ⟨ret, none, s⟩
  | n + 1, fd, ret, s =>
      let one := pselectOne p fd s
      if one.ret = -1 then ⟨-1, one.errno, one.sets⟩
      else pselectTentativeLoop p n (fd + 1) (ret + one.ret) one.sets

/-- `pselect_tentative`. -/
def pselectTentative (p : Pass) (nfds : ℤ) (s : Sets) : Result :=
  pselectTentativeLoop p nfds.toNat 0 0 s

/-! ### The call -/

/-- What a call of `pselect` finds: what the first clock reading leaves in `tend`, and for
each pass the clock reading before it, if `clock_gettime` does not fail, and the answers of the
drivers. -/
structure Input where
  start : Timespec
  clock : ℕ → Option Timespec
  pass : ℕ → Pass

/-- `tend`. -/
def Input.tend (i : Input) (timeout : Option Timespec) : Timespec :=
  match timeout with
  | none => timespecInfinity
  | some timeout => timespecAdd i.start timeout

/-- How a call ends. -/
inductive Outcome
  | nullPointer
  | waiting
  | returned (r : Result)

/-- The value returned, when the call returns. -/
def Outcome.retValue : Outcome → Option ℤ
  | .returned r => some r.ret
  | _ => none

/-- The loop of `pselect` from pass `k` on; the first argument bounds the passes, `saved` are
the copies and `s` the sets. -/
def pselectLoop (i : Input) (nfds : ℤ) (tend : Timespec) (saved : Sets) :
    ℕ → ℕ → Sets → Outcome
  | 0, _, _ => .waiting
  | fuel + 1, k, s =>
      match i.clock k with
      | none => .returned ⟨-1, some .EINVAL, s⟩
      | some tcurrent =>
          let r := pselectTentative (i.pass k) nfds s
          if r.ret ≠ 0 then .returned r
          else if 0 ≤ (timespecDiff tcurrent tend).2 then .returned r
          else pselectLoop i nfds tend saved fuel (k + 1) saved

/-- `pselect`, which copies all three sets. -/
def pselect (i : Input) (nfds : ℤ) (s : Sets) (timeout : Option Timespec) (fuel : ℕ) : Outcome :=
  if (s .readfds).isSome ∧ (s .writefds).isSome ∧ (s .errorfds).isSome then
    pselectLoop i nfds (i.tend timeout) s fuel 0 s
  else .nullPointer

/-- `select`, which reads its timeout. -/
def select (i : Input) (nfds : ℤ) (s : Sets) (timeout : Option Timeval) (fuel : ℕ) : Outcome :=
  match timeout with
  | none => .nullPointer
  | some timeout => pselect i nfds s (some (timevalToTimespec timeout)) fuel

/-! ## One descriptor -/

section One

variable (p : Pass) (fd : ℤ)

/-- So the poll does not fail. -/
theorem Pass.poll_ne : (p.poll fd).1 ≠ -1 := by
  unfold Pass.poll
  rw [pollTentative_singleton]
  dsimp only
  split_ifs <;> decide

/-- What `p.revents` holds: the answer cut to the events, or what it held before. -/
theorem Pass.revents_eq :
    p.revents fd
      = if 0 ≤ (pollAnswer p.drivers fd).toInt then
          pollAnswer p.drivers fd &&& (selectEvents ||| (pollHup ||| pollErr ||| pollNval))
        else p.junk fd := by
  unfold Pass.revents Pass.poll
  rw [pollTentative_singleton]
  unfold pollOne
  dsimp only
  split_ifs <;> rfl

/-- The events that `pselect_one` tests are among those of a driver's answer. -/
theorem Pass.revents_and (h : 0 ≤ (pollAnswer p.drivers fd).toInt) (kind : Kind) :
    p.revents fd &&& wanted kind = pollAnswer p.drivers fd &&& wanted kind := by
  rw [Pass.revents_eq, if_pos h, BitVec.and_assoc]
  congr 1
  cases kind <;> decide

end One

section OneSets

variable (p : Pass) (m : ℕ) (s : Sets)

/-- A descriptor is in one of the sets. -/
theorem issetAny_iff : issetAny m s = true ↔ ∃ k, fdIsset m (s k) = true := by
  unfold issetAny
  rw [Bool.or_eq_true, Bool.or_eq_true]
  constructor
  · rintro ((h | h) | h)
    · exact ⟨_, h⟩
    · exact ⟨_, h⟩
    · exact ⟨_, h⟩
  · rintro ⟨k, hk⟩
    cases k with
    | readfds => exact Or.inl (Or.inl hk)
    | writefds => exact Or.inl (Or.inr hk)
    | errorfds => exact Or.inr hk

theorem issetAny_congr {s t : Sets} (h : ∀ k, fdIsset m (s k) = fdIsset m (t k)) :
    issetAny m s = issetAny m t := by
  unfold issetAny
  rw [h, h, h]

/-! ### What is cleared -/

/-- The bits that are left after a descriptor. -/
theorem fdBit_clearUnready (k : Kind) (i : ℕ) :
    fdBit (clearUnready p m s k) i
      = (fdBit (s k) i && !decide (i = m ∧ m < openMax ∧ p.revents m &&& wanted k = 0)) := by
  unfold clearUnready
  by_cases h : p.revents m &&& wanted k = 0
  · rw [if_pos h, fdBit_fdClr]
    congr 2
    exact decide_eq_decide.2 ⟨fun hi => ⟨hi.1, hi.2, h⟩, fun hi => ⟨hi.1, hi.2.1⟩⟩
  · rw [if_neg h, decide_eq_false (fun hi => h hi.2.2), Bool.not_false, Bool.and_true]

/-- The sets stay where they are. -/
theorem isSome_clearUnready (k : Kind) : (clearUnready p m s k).isSome = (s k).isSome := by
  unfold clearUnready
  split_ifs
  · exact isSome_fdClr m (s k)
  · rfl

/-- A descriptor stays in a set in which its events are wanted. -/
theorem fdIsset_clearUnready (k : Kind) :
    fdIsset m (clearUnready p m s k)
      = (fdIsset m (s k) && decide (p.revents m &&& wanted k ≠ 0)) := by
  rw [fdIsset_eq, fdIsset_eq, fdBit_clearUnready]
  by_cases hm : m < openMax
  · rw [decide_eq_true hm, Bool.true_and, Bool.true_and]
    congr 1
    rw [← decide_not]
    exact decide_eq_decide.2 ⟨fun h h0 => h ⟨rfl, hm, h0⟩, fun h h0 => h h0.2.2⟩
  · rw [decide_eq_false hm, Bool.false_and, Bool.false_and, Bool.false_and]

/-- A descriptor in no set changes nothing. -/
theorem clearUnready_of_not_isset (h : issetAny m s = false) : clearUnready p m s = s := by
  funext k
  apply fdSet_ext (isSome_clearUnready p m s k)
  intro i
  rw [fdBit_clearUnready]
  by_cases hi : i = m ∧ m < openMax ∧ p.revents m &&& wanted k = 0
  · have hk : ¬ fdIsset m (s k) = true := fun hk => by
      rw [(issetAny_iff m s).2 ⟨k, hk⟩] at h
      cases h
    rw [fdIsset_eq, decide_eq_true hi.2.1, Bool.true_and, Bool.not_eq_true] at hk
    rw [hi.1, hk, Bool.false_and]
  · rw [decide_eq_false hi, Bool.not_false, Bool.and_true]

/-- The descriptor is in a set, and polling it says that it is not valid. -/
def Invalid : Prop := issetAny m s = true ∧ p.revents m &&& pollNval ≠ 0

instance : Decidable (Invalid p m s) :=
  inferInstanceAs (Decidable (issetAny m s = true ∧ p.revents m &&& pollNval ≠ 0))

/-- The descriptor is left in a set. -/
def ready : Bool := issetAny m (clearUnready p m s)

/-- A descriptor is ready in one of the sets. -/
theorem ready_iff :
    ready p m s = true ↔ ∃ k, fdIsset m (s k) = true ∧ p.revents m &&& wanted k ≠ 0 := by
  unfold ready
  rw [issetAny_iff]
  refine exists_congr fun k => ?_
  rw [fdIsset_clearUnready, Bool.and_eq_true, decide_eq_true_iff]

variable {p m s}

/-- A descriptor that is not valid ends the pass. -/
theorem pselectOne_of_invalid (h : Invalid p m s) :
    pselectOne p m s = ⟨-1, some .EBADF, s⟩ := by
  unfold pselectOne
  rw [if_pos h.1, if_pos (Or.inr h.2)]

/-- A valid one is counted when it is ready. -/
theorem pselectOne_of_valid (h : ¬ Invalid p m s) :
    pselectOne p m s = ⟨if ready p m s then 1 else 0, none, clearUnready p m s⟩ := by
  unfold pselectOne ready
  by_cases hany : issetAny m s = true
  · have hvalid : ¬ ((p.poll m).1 = -1 ∨ p.revents m &&& pollNval ≠ 0) := by
      rintro (hret | hnval)
      · exact p.poll_ne m hret
      · exact h ⟨hany, hnval⟩
    rw [if_pos hany, if_neg hvalid]
    dsimp only
    split_ifs <;> rfl
  · rw [Bool.not_eq_true] at hany
    rw [clearUnready_of_not_isset p m s hany, hany]
    rfl

end OneSets

/-! ## One pass -/

section OnePass

variable (p : Pass) (s : Sets)

/-- The sets after the descriptors below `m`. -/
def scanned : ℕ → Sets
  | 0 => s
  | m + 1 => clearUnready p m (scanned m)

/-- The bits that are left after the descriptors below `m`. -/
theorem fdBit_scanned (k : Kind) (m i : ℕ) :
    fdBit (scanned p s m k) i
      = (fdBit (s k) i && !decide (i < m ∧ i < openMax ∧ p.revents i &&& wanted k = 0)) := by
  induction m with
  | zero => rw [decide_eq_false (fun h => Nat.not_lt_zero i h.1), Bool.not_false, Bool.and_true]; rfl
  | succ m ih =>
      unfold scanned
      rw [fdBit_clearUnready, ih, Bool.and_assoc, ← Bool.not_or, ← Bool.decide_or]
      congr 2
      refine decide_eq_decide.2 ⟨?_, ?_⟩
      · rintro (h | ⟨rfl, h⟩)
        · exact ⟨by omega, h.2⟩
        · exact ⟨Nat.lt_succ_self i, h⟩
      · rintro ⟨hi, h⟩
        rcases Nat.lt_succ_iff_lt_or_eq.1 hi with hi | rfl
        · exact Or.inl ⟨hi, h⟩
        · exact Or.inr ⟨rfl, h⟩

/-- The sets stay where they are in a whole pass. -/
theorem isSome_scanned (k : Kind) (m : ℕ) : (scanned p s m k).isSome = (s k).isSome := by
  induction m with
  | zero => rfl
  | succ m ih =>
      unfold scanned
      rw [isSome_clearUnready, ih]

/-- The descriptors that come later are still where they were. -/
theorem fdIsset_scanned_of_le (k : Kind) {m i : ℕ} (h : m ≤ i) :
    fdIsset i (scanned p s m k) = fdIsset i (s k) := by
  have hnot : ¬ (i < m ∧ i < openMax ∧ p.revents i &&& wanted k = 0) := fun hi => by omega
  rw [fdIsset_eq, fdIsset_eq, fdBit_scanned, decide_eq_false hnot, Bool.not_false, Bool.and_true]

/-- The descriptors that came before stay where their events are wanted. -/
theorem fdIsset_scanned_of_lt (k : Kind) {m i : ℕ} (h : i < m) :
    fdIsset i (scanned p s m k)
      = (fdIsset i (s k) && decide (p.revents i &&& wanted k ≠ 0)) := by
  rw [fdIsset_eq, fdIsset_eq, fdBit_scanned]
  by_cases hi : i < openMax
  · rw [decide_eq_true hi, Bool.true_and, Bool.true_and]
    congr 1
    rw [← decide_not]
    exact decide_eq_decide.2 ⟨fun hn h0 => hn ⟨h, hi, h0⟩, fun hn h0 => hn h0.2.2⟩
  · rw [decide_eq_false hi, Bool.false_and, Bool.false_and, Bool.false_and]

theorem invalid_scanned (m : ℕ) : Invalid p m (scanned p s m) ↔ Invalid p m s := by
  unfold Invalid
  rw [issetAny_congr m fun k => fdIsset_scanned_of_le p s k le_rfl]

theorem ready_scanned (m : ℕ) : ready p m (scanned p s m) = ready p m s := by
  rw [Bool.eq_iff_iff, ready_iff, ready_iff]
  refine exists_congr fun k => ?_
  rw [fdIsset_scanned_of_le p s k le_rfl]

variable {p s}

/-! ### The loop over the descriptors -/

/-- The loop over descriptors that are all valid. -/
theorem pselectTentativeLoop_of_valid (n m : ℕ) (ret : ℤ)
    (h : ∀ fd, m ≤ fd → fd < m + n → ¬ Invalid p fd s) :
    pselectTentativeLoop p n m ret (scanned p s m)
      = ⟨ret + (List.range' m n).countP fun fd => ready p fd s, none, scanned p s (m + n)⟩ := by
  induction n generalizing m ret with
  | zero => rw [List.range'_zero, List.countP_nil, Nat.cast_zero, add_zero]; rfl
  | succ n ih =>
      have hone := pselectOne_of_valid ((invalid_scanned p s m).not.2 (h m le_rfl (by omega)))
      unfold pselectTentativeLoop
      rw [hone, ready_scanned]
      dsimp only
      rw [if_neg (by split_ifs <;> decide)]
      have hrest := ih (m + 1) (ret + if ready p m s then 1 else 0)
        (fun fd hlo hhi => h fd (by omega) (by omega))
      rw [Nat.cast_add, Nat.cast_one] at hrest
      rw [show clearUnready p m (scanned p s m) = scanned p s (m + 1) from rfl, hrest,
        List.range'_succ, List.countP_cons, Nat.cast_add, Nat.add_right_comm, add_assoc, Nat.add_assoc]
      congr 1
      split_ifs <;> simp [add_comm]

/-- The loop stops at the first descriptor that is not valid. -/
theorem pselectTentativeLoop_of_invalid {v : ℕ} (hv : Invalid p v s) (n m : ℕ) (ret : ℤ)
    (hm : m ≤ v) (hn : v < m + n) (h : ∀ fd, m ≤ fd → fd < v → ¬ Invalid p fd s) :
    pselectTentativeLoop p n m ret (scanned p s m) = ⟨-1, some .EBADF, scanned p s v⟩ := by
  induction n generalizing m ret with
  | zero => omega
  | succ n ih =>
      unfold pselectTentativeLoop
      rcases hm.eq_or_lt with rfl | hlt
      · rw [pselectOne_of_invalid ((invalid_scanned p s m).2 hv)]
        rfl
      · rw [pselectOne_of_valid ((invalid_scanned p s m).not.2 (h m le_rfl hlt))]
        dsimp only
        rw [if_neg (by split_ifs <;> decide)]
        have hrest := ih (m + 1) (ret + if ready p m (scanned p s m) then 1 else 0) hlt (by omega)
          (fun fd hlo hhi => h fd (by omega) hhi)
        rw [Nat.cast_add, Nat.cast_one] at hrest
        exact hrest

variable {nfds : ℤ}

/-- **A pass without an invalid descriptor** counts those that are left. -/
theorem pselectTentative_of_valid (h : ∀ fd < nfds.toNat, ¬ Invalid p fd s) :
    pselectTentative p nfds s
      = ⟨(List.range nfds.toNat).countP fun fd => ready p fd s, none,
          scanned p s nfds.toNat⟩ := by
  have hloop := pselectTentativeLoop_of_valid nfds.toNat 0 0
    (fun fd _ hhi => h fd (by omega))
  rw [Nat.cast_zero, zero_add, Nat.zero_add, ← List.range_eq_range'] at hloop
  exact hloop

/-- **A pass with an invalid descriptor** ends at the first one. -/
theorem pselectTentative_of_invalid {v : ℕ} (hv : Invalid p v s) (hlt : v < nfds.toNat)
    (h : ∀ fd < v, ¬ Invalid p fd s) :
    pselectTentative p nfds s = ⟨-1, some .EBADF, scanned p s v⟩ :=
  pselectTentativeLoop_of_invalid hv nfds.toNat 0 0 (Nat.zero_le v) (by omega)
    (fun fd _ hhi => h fd hhi)

/-- How a pass goes. -/
theorem pselectTentative_cases (p : Pass) (s : Sets) (nfds : ℤ) :
    (∀ fd < nfds.toNat, ¬ Invalid p fd s) ∨
      ∃ v < nfds.toNat, Invalid p v s ∧ ∀ fd < v, ¬ Invalid p fd s := by
  by_cases h : ∃ v, v < nfds.toNat ∧ Invalid p v s
  · obtain ⟨hlt, hinv⟩ := Nat.find_spec h
    refine Or.inr ⟨Nat.find h, hlt, hinv, fun fd hfd hbad => ?_⟩
    exact Nat.find_min h hfd ⟨hfd.trans hlt, hbad⟩
  · exact Or.inl fun fd hfd hbad => h ⟨fd, hfd, hbad⟩

/-- A pass that finds nothing. -/
theorem pselectTentative_ret_eq_zero_iff :
    (pselectTentative p nfds s).ret = 0
      ↔ ∀ fd < nfds.toNat, ¬ Invalid p fd s ∧ ready p fd s = false := by
  rcases pselectTentative_cases p s nfds with hvalid | ⟨v, hlt, hinv, hfirst⟩
  · rw [pselectTentative_of_valid hvalid]
    dsimp only
    rw [Int.natCast_eq_zero, List.countP_eq_zero]
    constructor
    · intro h fd hfd
      exact ⟨hvalid fd hfd, Bool.eq_false_iff.2 (h fd (List.mem_range.2 hfd))⟩
    · intro h fd hfd hready
      rw [(h fd (List.mem_range.1 hfd)).2] at hready
      cases hready
  · rw [pselectTentative_of_invalid hinv hlt hfirst]
    exact iff_of_false (by dsimp only; decide) fun h => (h v hlt).1 hinv

end OnePass

/-! ## The passes -/

/-- What one pass of the loop of `pselect` decides, starting from the sets `s`. -/
def round (i : Input) (nfds : ℤ) (tend : Timespec) (s : Sets) (k : ℕ) : Option Result :=
  match i.clock k with
  | none => some ⟨-1, some .EINVAL, s⟩
  | some tcurrent =>
      let r := pselectTentative (i.pass k) nfds s
      if r.ret ≠ 0 ∨ 0 ≤ (timespecDiff tcurrent tend).2 then some r else none

/-- **Every pass starts from the sets that were passed**: the loop is the search for the first
pass that decides. -/
theorem pselectLoop_eq (i : Input) (nfds : ℤ) (tend : Timespec) (s : Sets) (fuel k : ℕ) :
    pselectLoop i nfds tend s fuel k s
      = match Retry.attempts (round i nfds tend s) fuel k with
        | some r => .returned r
        | none => .waiting := by
  induction fuel generalizing k with
  | zero => rfl
  | succ fuel ih =>
      unfold pselectLoop Retry.attempts round
      cases i.clock k with
      | none => rfl
      | some tcurrent =>
          dsimp only
          by_cases hret : (pselectTentative (i.pass k) nfds s).ret ≠ 0
          · rw [if_pos hret, if_pos (Or.inl hret)]
          · rw [if_neg hret]
            by_cases hexp : 0 ≤ (timespecDiff tcurrent tend).2
            · rw [if_pos hexp, if_pos (Or.inr hexp)]
            · rw [if_neg hexp, if_neg (not_or.2 ⟨hret, hexp⟩)]
              exact ih (k + 1)

/-- A call returns what the first pass that decides does. -/
theorem firstAt_of_returned {i : Input} {nfds : ℤ} {s : Sets} {timeout : Option Timespec}
    {fuel : ℕ} {r : Result} (h : pselect i nfds s timeout fuel = .returned r) :
    ∃ k, Retry.FirstAt (round i nfds (i.tend timeout) s) k r := by
  unfold pselect at h
  split_ifs at h
  rw [pselectLoop_eq] at h
  cases hatt : Retry.attempts (round i nfds (i.tend timeout) s) fuel 0 with
  | none =>
      rw [hatt] at h
      cases h
  | some r' =>
      rw [hatt] at h
      cases h
      obtain ⟨k, -, hfirst⟩ := Retry.attempts_eq_some_iff.1 hatt
      exact ⟨k, hfirst⟩

/-! ### Idle passes -/

/-- Pass `k` finds no descriptor that is ready or not valid, before the end of the wait. -/
structure Idle (i : Input) (nfds : ℤ) (tend : Timespec) (s : Sets) (k : ℕ) : Prop where
  nothing : ∀ fd : ℕ, (fd : ℤ) < nfds →
    ¬ Invalid (i.pass k) fd s ∧ ready (i.pass k) fd s = false
  early : ∃ tcurrent, i.clock k = some tcurrent ∧ (timespecDiff tcurrent tend).2 < 0

/-- An idle pass is one that does not end the call. -/
theorem round_eq_none_iff {i : Input} {nfds : ℤ} {tend : Timespec} {s : Sets} {k : ℕ} :
    round i nfds tend s k = none ↔ Idle i nfds tend s k := by
  unfold round
  cases hclock : i.clock k with
  | none =>
      constructor
      · intro h
        cases h
      · rintro ⟨-, t, ht, -⟩
        rw [hclock] at ht
        cases ht
  | some tcurrent =>
      dsimp only
      rw [ite_eq_right_iff]
      constructor
      · intro h
        have hnot : ¬ ((pselectTentative (i.pass k) nfds s).ret ≠ 0 ∨
            0 ≤ (timespecDiff tcurrent tend).2) := fun hd => by cases h hd
        rw [not_or, not_not, not_le] at hnot
        refine ⟨fun fd hfd => ?_, tcurrent, hclock, hnot.2⟩
        exact pselectTentative_ret_eq_zero_iff.1 hnot.1 fd (by omega)
      · rintro ⟨hnothing, t, ht, hearly⟩ hd
        rw [hclock] at ht
        cases ht
        rcases hd with hret | hexp
        · exact absurd (pselectTentative_ret_eq_zero_iff.2 fun fd hfd => hnothing fd (by omega)) hret
        · omega

/-- When a call returns, pass `k` being the first that is not idle, then `k` passes leave it
waiting, and it returns with the next. -/
theorem ends_with_pass {i : Input} {nfds : ℤ} {s : Sets} {timeout : Option Timespec} {fuel k : ℕ}
    {r : Result} (h : pselect i nfds s timeout fuel = .returned r)
    (hidle : ∀ j < k, Idle i nfds (i.tend timeout) s j)
    (hends : ¬ Idle i nfds (i.tend timeout) s k) :
    pselect i nfds s timeout k = .waiting ∧ pselect i nfds s timeout (k + 1) = .returned r := by
  obtain ⟨k', hfirst⟩ := firstAt_of_returned h
  have hk : k' = k := by
    rcases Nat.lt_trichotomy k' k with hlt | heq | hlt
    · have hnone := round_eq_none_iff.2 (hidle k' hlt)
      rw [hfirst.result] at hnone
      cases hnone
    · exact heq
    · exact absurd (round_eq_none_iff.1 (hfirst.before k hlt)) hends
  subst hk
  have hnone : Retry.attempts (round i nfds (i.tend timeout) s) k' 0 = none := by
    by_contra hsome
    obtain ⟨r', hr'⟩ := Option.ne_none_iff_exists'.1 hsome
    obtain ⟨j, hlt, hfirst'⟩ := Retry.attempts_eq_some_iff.1 hr'
    have heq := (hfirst.unique hfirst').1
    omega
  unfold pselect at h ⊢
  split_ifs at h ⊢
  rw [pselectLoop_eq, pselectLoop_eq, hnone,
    Retry.attempts_eq_some_iff.2 ⟨k', Nat.lt_succ_self k', hfirst⟩]
  exact ⟨rfl, rfl⟩

/-! ## What is returned -/

/-- What a return of pass `k` that is no error says; `tcurrent` is the clock reading before that
pass. -/
structure Selected (i : Input) (nfds : ℤ) (s : Sets) (timeout : Option Timespec) (k : ℕ)
    (tcurrent : Timespec) (r : Result) : Prop where
  clock : i.clock k = some tcurrent
  /-- The earlier passes found nothing in the sets as they were passed. -/
  idle : ∀ j < k, Idle i nfds (i.tend timeout) s j
  /-- The events tested are those of the driver's answer, where it is an answer. -/
  polled : ∀ fd, 0 ≤ (pollAnswer (i.pass k).drivers fd).toInt → ∀ kind,
    (i.pass k).revents fd &&& wanted kind = pollAnswer (i.pass k).drivers fd &&& wanted kind
  isset : ∀ (kind : Kind) (fd : ℤ), 0 ≤ fd → fd < nfds →
    (fdIsset fd (r.sets kind) = true
      ↔ fdIsset fd (s kind) = true ∧ (i.pass k).revents fd &&& wanted kind ≠ 0)
  above : ∀ (kind : Kind) (n : ℕ), nfds ≤ n → fdBit (r.sets kind) n = fdBit (s kind) n
  pos_iff : 0 < r.ret ↔
    ∃ (kind : Kind) (fd : ℤ), 0 ≤ fd ∧ fd < nfds ∧ fdIsset fd (r.sets kind) = true
  expired : r.ret = 0 → 0 ≤ (timespecDiff tcurrent (i.tend timeout)).2
  /-- Without a timeout there is no end. -/
  infinite : timeout = none → tcurrent.Reading → r.ret ≠ 0
  /-- The true deadline, for times that are times. -/
  deadline : ∀ t, timeout = some t → t.Normalised → t.tvSec ≤ intMax → i.start.Normalised →
    tcurrent.Normalised → i.start.Le tcurrent → r.ret = 0 →
      i.start.nanos + t.nanos ≤ tcurrent.nanos

/-- The descriptors that a pass leaves. -/
theorem fdIsset_scanned {p : Pass} {s : Sets} {nfds : ℤ} (kind : Kind) {fd : ℤ} (hlo : 0 ≤ fd)
    (hhi : fd < nfds) :
    fdIsset fd (scanned p s nfds.toNat kind) = true
      ↔ fdIsset fd (s kind) = true ∧ p.revents fd &&& wanted kind ≠ 0 := by
  obtain ⟨m, rfl⟩ := Int.eq_ofNat_of_zero_le hlo
  rw [fdIsset_scanned_of_lt p s kind (by omega), Bool.and_eq_true, decide_eq_true_iff]

/-- A pass that returns no error. -/
theorem pselectTentative_of_nonneg {p : Pass} {s : Sets} {nfds : ℤ}
    (h : 0 ≤ (pselectTentative p nfds s).ret) :
    (pselectTentative p nfds s).sets = scanned p s nfds.toNat ∧
      (0 < (pselectTentative p nfds s).ret
        ↔ ∃ (kind : Kind) (fd : ℤ), 0 ≤ fd ∧ fd < nfds ∧
            fdIsset fd ((pselectTentative p nfds s).sets kind) = true) := by
  rcases pselectTentative_cases p s nfds with hvalid | ⟨v, hlt, hinv, hfirst⟩
  · rw [pselectTentative_of_valid hvalid]
    refine ⟨rfl, ?_⟩
    dsimp only
    rw [Int.natCast_pos, List.countP_pos_iff]
    constructor
    · rintro ⟨fd, hfd, hready⟩
      obtain ⟨kind, hset, hrev⟩ := (ready_iff p fd s).1 hready
      have hfd' := List.mem_range.1 hfd
      exact ⟨kind, fd, by omega, by omega,
        (fdIsset_scanned kind (by omega) (by omega)).2 ⟨hset, hrev⟩⟩
    · rintro ⟨kind, fd, hlo, hhi, hset⟩
      obtain ⟨hin, hrev⟩ := (fdIsset_scanned kind hlo hhi).1 hset
      obtain ⟨m, rfl⟩ := Int.eq_ofNat_of_zero_le hlo
      exact ⟨m, List.mem_range.2 (by omega), (ready_iff p m s).2 ⟨kind, hin, hrev⟩⟩
  · rw [pselectTentative_of_invalid hinv hlt hfirst] at h
    exact absurd h (by dsimp only; decide)

/-! ### Returns -/

/-- How a call returns: without a clock reading, or with the work of the first pass that
decides. -/
theorem returned_cases {i : Input} {nfds : ℤ} {s : Sets} {timeout : Option Timespec} {fuel : ℕ}
    {r : Result} (h : pselect i nfds s timeout fuel = .returned r) :
    ∃ k, (∀ j < k, Idle i nfds (i.tend timeout) s j) ∧
      (r = ⟨-1, some .EINVAL, s⟩ ∨ ∃ tcurrent, i.clock k = some tcurrent ∧
        r = pselectTentative (i.pass k) nfds s ∧
        (r.ret ≠ 0 ∨ 0 ≤ (timespecDiff tcurrent (i.tend timeout)).2)) := by
  obtain ⟨k, hbefore, hround⟩ := firstAt_of_returned h
  refine ⟨k, fun j hj => round_eq_none_iff.1 (hbefore j hj), ?_⟩
  unfold round at hround
  cases hclock : i.clock k with
  | none =>
      rw [hclock] at hround
      cases hround
      exact Or.inl rfl
  | some tcurrent =>
      rw [hclock] at hround
      dsimp only at hround
      split_ifs at hround with hdecides
      cases hround
      exact Or.inr ⟨tcurrent, rfl, rfl, hdecides⟩

/-- The pass that ends a call is not idle. -/
theorem not_idle_of_decides {i : Input} {nfds : ℤ} {tend tcurrent : Timespec} {s : Sets} {k : ℕ}
    (hclock : i.clock k = some tcurrent)
    (hdecides : (pselectTentative (i.pass k) nfds s).ret ≠ 0 ∨
      0 ≤ (timespecDiff tcurrent tend).2) : ¬ Idle i nfds tend s k := by
  intro hidle
  have hround := round_eq_none_iff.2 hidle
  unfold round at hround
  rw [hclock] at hround
  dsimp only at hround
  rw [if_pos hdecides] at hround
  cases hround

/-- **What `pselect` returns** when it is no error: the sets that were passed, cut to what the
last pass found, and 0 only at the deadline. -/
theorem pselect_selected {i : Input} {nfds : ℤ} {s : Sets} {timeout : Option Timespec} {fuel : ℕ}
    {r : Result} (h : pselect i nfds s timeout fuel = .returned r) (hret : 0 ≤ r.ret) :
    ∃ k tcurrent, Selected i nfds s timeout k tcurrent r := by
  obtain ⟨k, hidle, rfl | ⟨tcurrent, hclock, rfl, hdecides⟩⟩ := returned_cases h
  · exact absurd hret (by dsimp only; decide)
  · obtain ⟨hsets, hpos⟩ := pselectTentative_of_nonneg hret
    have hexpired : (pselectTentative (i.pass k) nfds s).ret = 0 →
        0 ≤ (timespecDiff tcurrent (i.tend timeout)).2 := fun hzero =>
      hdecides.resolve_left (not_not.2 hzero)
    refine ⟨k, tcurrent, hclock, hidle, fun fd h kind => (i.pass k).revents_and fd h kind, ?_, ?_,
      hpos, hexpired, ?_, ?_⟩
    · intro kind fd hlo hhi
      rw [hsets]
      exact fdIsset_scanned kind hlo hhi
    · intro kind n hn
      rw [hsets, fdBit_scanned, decide_eq_false (fun hi => by omega), Bool.not_false,
        Bool.and_true]
    · rintro rfl hreading hzero
      have hneg := Timespec.diff_infinity_neg hreading
      have hnonneg := hexpired hzero
      unfold Input.tend at hnonneg
      dsimp only at hnonneg
      omega
    · rintro t rfl ht hmax hstart hcurrent hle hzero
      exact Timespec.nanos_le_of_reached hstart ht hmax hcurrent hle (hexpired hzero)

/-! ## Sets after an error -/

/-- Pass `k` is the first one that finds anything, and the lowest descriptor that it finds not
valid is `v`. -/
structure FailsAt (i : Input) (nfds : ℤ) (s : Sets) (timeout : Option Timespec) (k v : ℕ) :
    Prop where
  idle : ∀ j < k, Idle i nfds (i.tend timeout) s j
  clock : ∃ tcurrent, i.clock k = some tcurrent
  below : (v : ℤ) < nfds
  invalid : Invalid (i.pass k) v s
  first : ∀ fd < v, ¬ Invalid (i.pass k) fd s

/-- Every descriptor below `v` has, for each set it is in, an event that is wanted there. -/
def WantedBelow (p : Pass) (s : Sets) (v : ℕ) : Prop :=
  ∀ fd < v, ∀ kind, fdIsset fd (s kind) = true → p.revents fd &&& wanted kind ≠ 0

/-- A pass that fails leaves the sets alone if nothing was cleared before. -/
theorem scanned_eq_iff {p : Pass} {s : Sets} {v : ℕ} :
    scanned p s v = s ↔ WantedBelow p s v := by
  constructor
  · intro h fd hfd kind hset
    have hkept := fdIsset_scanned_of_lt p s kind hfd
    rw [h, hset, Bool.true_and] at hkept
    exact of_decide_eq_true hkept.symm
  · intro h
    funext kind
    apply fdSet_ext (isSome_scanned p s kind v)
    intro n
    rw [fdBit_scanned]
    by_cases hn : n < v ∧ n < openMax ∧ p.revents n &&& wanted kind = 0
    · have hnot : ¬ fdIsset n (s kind) = true := fun hset => h n hn.1 kind hset hn.2.2
      rw [fdIsset_eq, decide_eq_true hn.2.1, Bool.true_and, Bool.not_eq_true] at hnot
      rw [hnot, Bool.false_and]
    · rw [decide_eq_false hn, Bool.not_false, Bool.and_true]

/-- **The sets after `EBADF`** are as they were passed exactly when, in the pass that fails,
every lower descriptor has a wanted event for each set it is in. -/
theorem pselect_ebadf_keeps {i : Input} {nfds : ℤ} {s : Sets} {timeout : Option Timespec}
    {fuel : ℕ} {r : Result} (h : pselect i nfds s timeout fuel = .returned r)
    (hret : r.ret = -1) (herrno : r.errno = some .EBADF) :
    ∃ k v, FailsAt i nfds s timeout k v ∧ (r.sets = s ↔ WantedBelow (i.pass k) s v) := by
  obtain ⟨k, hidle, rfl | ⟨tcurrent, hclock, rfl, hdecides⟩⟩ := returned_cases h
  · cases herrno
  · rcases pselectTentative_cases (i.pass k) s nfds with hvalid | ⟨v, hlt, hinv, hfirst⟩
    · rw [pselectTentative_of_valid hvalid] at herrno
      cases herrno
    · refine ⟨k, v, ⟨hidle, ⟨tcurrent, hclock⟩, by omega, hinv, hfirst⟩, ?_⟩
      rw [pselectTentative_of_invalid hinv hlt hfirst]
      exact scanned_eq_iff

/-- Enough passes return the error. -/
theorem FailsAt.returned {i : Input} {nfds : ℤ} {s : Sets} {timeout : Option Timespec} {k v : ℕ}
    (h : FailsAt i nfds s timeout k v) (hsome : ∀ kind, (s kind).isSome = true) {fuel : ℕ}
    (hfuel : k < fuel) :
    pselect i nfds s timeout fuel = .returned ⟨-1, some .EBADF, scanned (i.pass k) s v⟩ := by
  obtain ⟨tcurrent, hclock⟩ := h.clock
  have hlt : v < nfds.toNat := by
    have hbelow := h.below
    omega
  have hpass := pselectTentative_of_invalid h.invalid hlt h.first
  have hfirst : Retry.FirstAt (round i nfds (i.tend timeout) s) k
      ⟨-1, some .EBADF, scanned (i.pass k) s v⟩ := by
    refine ⟨fun j hj => round_eq_none_iff.2 (h.idle j hj), ?_⟩
    unfold round
    rw [hclock]
    dsimp only
    rw [hpass]
    exact if_pos (Or.inl (by dsimp only; decide))
  unfold pselect
  rw [if_pos ⟨hsome _, hsome _, hsome _⟩, pselectLoop_eq,
    Retry.attempts_eq_some_iff.2 ⟨k, hfuel, hfirst⟩]

/-! ### Two descriptors -/

/-- The descriptors 3 and 4 wait to be read. -/
def readThreeFour : Sets
  | .readfds => some ⟨fun _ => 0b11000⟩
  | _ => some ⟨fun _ => 0⟩

/-- A call that finds the given answer for descriptor 3, and no descriptor 4. -/
def answerThree (revents : BitVec 16) : Input where
  start := timespecZero
  clock := fun _ => some timespecZero
  pass := fun _ => ⟨fun fd => if fd = 3 then some revents else none, fun _ => 0⟩

theorem readThreeFour_isSome (kind : Kind) : (readThreeFour kind).isSome = true := by
  cases kind <;> rfl

/-- A call that returns a value returns. -/
theorem returned_of_retValue {o : Outcome} {v : ℤ} (h : o.retValue = some v) :
    ∃ r, o = .returned r ∧ r.ret = v := by
  cases o with
  | nullPointer => cases h
  | waiting => cases h
  | returned r => exact ⟨r, rfl, Option.some.inj h⟩

/-- A call that finds the given answer for descriptor 3 from the second pass on. -/
def laterThree (revents : BitVec 16) : Input where
  start := timespecZero
  clock := fun k => some ⟨k, 0⟩
  pass := fun k => ⟨fun fd => if fd = 3 then some (if k = 0 then 0 else revents) else none,
    fun _ => 0⟩

/-- Only descriptor 3 is polled, and there is something to read in the second pass, for which
the first one has left the sets as they were. -/
theorem pselect_selected_three :
    ∃ r k tcurrent, pselect (laterThree pollIn) 4 readThreeFour (some ⟨5, 0⟩) 2 = .returned r ∧
      Selected (laterThree pollIn) 4 readThreeFour (some ⟨5, 0⟩) k tcurrent r ∧ r.ret = 1 ∧
      pselect (laterThree pollIn) 4 readThreeFour (some ⟨5, 0⟩) 1 = .waiting := by
  have hret : (pselect (laterThree pollIn) 4 readThreeFour (some ⟨5, 0⟩) 2).retValue = some 1 := by
    decide +kernel
  obtain ⟨r, hcall, hone⟩ := returned_of_retValue hret
  obtain ⟨k, tcurrent, hsel⟩ := pselect_selected hcall (by omega)
  exact ⟨r, k, tcurrent, hcall, hsel, hone, rfl⟩

/-- Descriptor 4 is not valid; descriptor 3 can be read. -/
theorem answerThree_failsAt_ready : FailsAt (answerThree pollIn) 5 readThreeFour none 0 4 :=
  ⟨fun j hj => absurd hj (Nat.not_lt_zero j), ⟨_, rfl⟩, by decide, by decide +kernel,
    by decide +kernel⟩

/-- Descriptor 4 is not valid; descriptor 3 cannot be read. -/
theorem answerThree_failsAt_idle : FailsAt (answerThree 0) 5 readThreeFour none 0 4 :=
  ⟨fun j hj => absurd hj (Nat.not_lt_zero j), ⟨_, rfl⟩, by decide, by decide +kernel,
    by decide +kernel⟩

/-- An error behind a descriptor that is ready. -/
theorem pselect_ebadf_keeps_ready :
    ∃ r k v, pselect (answerThree pollIn) 5 readThreeFour none 1 = .returned r ∧
      FailsAt (answerThree pollIn) 5 readThreeFour none k v ∧
      (r.sets = readThreeFour ↔ WantedBelow ((answerThree pollIn).pass k) readThreeFour v) := by
  have hcall := answerThree_failsAt_ready.returned readThreeFour_isSome Nat.one_pos
  obtain ⟨k, v, hfails, hkeeps⟩ := pselect_ebadf_keeps hcall rfl rfl
  exact ⟨_, k, v, hcall, hfails, hkeeps⟩

/-- Behind a descriptor that is not ready the set has lost that descriptor. -/
theorem pselect_ebadf_loses :
    ¬ ∀ (i : Input) (nfds : ℤ) (s : Sets) (timeout : Option Timespec) (fuel : ℕ) (r : Result),
      pselect i nfds s timeout fuel = .returned r → r.ret = -1 → r.errno = some .EBADF →
        r.sets = s := by
  intro h
  have hcall := answerThree_failsAt_idle.returned readThreeFour_isSome Nat.one_pos
  have hsets := h _ _ _ _ _ _ hcall rfl rfl
  exact scanned_eq_iff.1 hsets 3 (by decide) .readfds (by decide +kernel) (by decide +kernel)

end Select

end Nucleo
