/-
# Signal sets and the table of actions

The operations on signal sets with the sets of numbers they stand for, and the table
`signal_actions` with `sigaction`, `siginterrupt`, `sigignore` and `signal_act`.
-/
import Nucleo.Signal

namespace Nucleo

namespace Signal

/-! ## Signal sets -/

/-- `sigemptyset`. -/
def sigemptyset : SigSet := 0

/-- `sigfillset`. -/
def sigfillset : SigSet := ~~~0

/-- `sigaddset`. -/
def sigaddset (set : SigSet) (sig : ℤ) : SigSet := set ||| sigmask sig

/-- `sigdelset`. -/
def sigdelset (set : SigSet) (sig : ℤ) : SigSet := set &&& ~~~sigmask sig

/-- The signals of a set. -/
def members (set : SigSet) : Set ℤ := {n | IsSignal n ∧ sigismember set n ≠ 0}

section Sets

variable {sig n : ℤ}

/-- Membership is a bit of the mask. -/
theorem IsSignal.sigismember_ne_zero_iff (hn : IsSignal n) (set : SigSet) :
    sigismember set n ≠ 0 ↔ set.getLsbD (n - 1).toNat = true := by
  rw [ne_eq, hn.sigismember_eq_zero_iff, Bool.not_eq_false]

/-- The bit is one of the mask. -/
theorem IsSignal.bit_lt (hn : IsSignal n) : (n - 1).toNat < 32 := by
  obtain ⟨h1, h2⟩ := hn
  unfold signalMax at h2
  omega

/-- The mask of a signal has one bit. -/
theorem IsSignal.getLsbD_sigmask (hsig : IsSignal sig) (hn : IsSignal n) :
    (sigmask sig).getLsbD (n - 1).toNat = decide (n = sig) := by
  have hlt := hsig.bit_lt
  have hmod : (sig - 1) % 256 = sig - 1 := by
    have h1 := hsig.1
    omega
  have heq : (sig - 1).toNat = (n - 1).toNat ↔ n = sig := by
    have h1 := hsig.1
    have h2 := hn.1
    omega
  unfold sigmask
  rw [hmod, ← BitVec.twoPow_eq, BitVec.getLsbD_twoPow, decide_eq_true hlt, Bool.true_and,
    decide_eq_decide, heq]

/-- **`sigemptyset` has no member**. -/
theorem members_sigemptyset : members sigemptyset = ∅ := by
  rw [Set.eq_empty_iff_forall_notMem]
  rintro n ⟨hn, hmem⟩
  rw [hn.sigismember_ne_zero_iff] at hmem
  unfold sigemptyset at hmem
  simp at hmem

/-- `sigfillset` has every signal. -/
theorem members_sigfillset : members sigfillset = {n | IsSignal n} := by
  ext n
  refine ⟨fun h => h.1, fun hn => ⟨hn, ?_⟩⟩
  rw [hn.sigismember_ne_zero_iff]
  unfold sigfillset
  rw [BitVec.getLsbD_not, decide_eq_true hn.bit_lt]
  simp

/-- `sigaddset` adds one. -/
theorem members_sigaddset (set : SigSet) (hsig : IsSignal sig) :
    members (sigaddset set sig) = insert sig (members set) := by
  ext n
  rw [Set.mem_insert_iff]
  by_cases hn : IsSignal n
  · show IsSignal n ∧ _ ↔ n = sig ∨ IsSignal n ∧ _
    rw [hn.sigismember_ne_zero_iff, hn.sigismember_ne_zero_iff]
    unfold sigaddset
    rw [BitVec.getLsbD_or, hsig.getLsbD_sigmask hn, Bool.or_eq_true, decide_eq_true_eq]
    simp only [hn, true_and]
    exact or_comm
  · refine iff_of_false (fun h => hn h.1) ?_
    rintro (rfl | h)
    · exact hn hsig
    · exact hn h.1

/-- `sigdelset` takes one away. -/
theorem members_sigdelset (set : SigSet) (hsig : IsSignal sig) :
    members (sigdelset set sig) = members set \ {sig} := by
  ext n
  rw [Set.mem_sdiff, Set.mem_singleton_iff]
  by_cases hn : IsSignal n
  · show IsSignal n ∧ _ ↔ (IsSignal n ∧ _) ∧ ¬ n = sig
    rw [hn.sigismember_ne_zero_iff, hn.sigismember_ne_zero_iff]
    unfold sigdelset
    rw [BitVec.getLsbD_and, BitVec.getLsbD_not, hsig.getLsbD_sigmask hn,
      decide_eq_true hn.bit_lt, Bool.true_and, Bool.and_eq_true, Bool.not_eq_true',
      decide_eq_false_iff_not]
    simp only [hn, true_and]
  · exact iff_of_false (fun h => hn h.1) fun h => hn h.1.1

end Sets

/-! ## Actions -/

/-- `struct sigaction`; `sa_sigaction` is another name of `sa_handler`. -/
structure Sigaction where
  saHandler : BitVec 32
  saMask : SigSet
  saFlags : BitVec 32
  deriving DecidableEq, Repr

/-- `SIG_DFL`. -/
def sigDfl : BitVec 32 := 0

/-- `SIG_IGN`. -/
def sigIgn : BitVec 32 := 1

/-- `SA_RESTART`. -/
def saRestart : BitVec 32 := 8

/-- `SA_SIGINFO`. -/
def saSiginfo : BitVec 32 := 16

/-- An action in zero-initialised memory. -/
def Sigaction.zero : Sigaction := ⟨sigDfl, 0, 0⟩

/-- An index of `signal_actions`, which has `SIGNAL_MAX + 1` entries. -/
abbrev ActionIndex := Fin (signalMax.toNat + 1)

/-- The static `signal_actions`. -/
abbrev SignalActions := ActionIndex → Sigaction

/-- The index that a signal number is, when `sigaction` takes it. -/
def actionIndex (sig : ℤ) : Option ActionIndex :=
  if h : 0 ≤ sig ∧ sig ≤ signalMax then some ⟨sig.toNat, by unfold signalMax at h ⊢; omega⟩
  else none

/-- `sigaction`: the error, or the action stored through `oact` and the new table. -/
def sigaction (sig : ℤ) (act : Option Sigaction) (t : SignalActions) :
    Except Errno (Sigaction × SignalActions) :=
  match actionIndex sig with
  | none => .error .EINVAL
  | some i => .ok (t i, act.elim t (Function.update t i))

/-- What `sigignore` and `siginterrupt` read with `sigaction`: `junk` is what is in the local
variable when the call fails. -/
def actionOrJunk (sig : ℤ) (junk : Sigaction) (t : SignalActions) : Sigaction :=
  match sigaction sig none t with
  | .ok (act, _) => act
  | .error _ => junk

/-- `siginterrupt`. -/
def siginterrupt (sig : ℤ) (flag : Bool) (junk : Sigaction) (t : SignalActions) :
    Except Errno SignalActions :=
  let act := actionOrJunk sig junk t
  let act := if flag then { act with saFlags := act.saFlags &&& ~~~saRestart }
    else { act with saFlags := act.saFlags ||| saRestart }
  (sigaction sig (some act) t).map Prod.snd

/-- `sigignore`. -/
def sigignore (sig : ℤ) (junk : Sigaction) (t : SignalActions) : Except Errno SignalActions :=
  let act := { actionOrJunk sig junk t with saHandler := sigIgn }
  (sigaction sig (some act) t).map Prod.snd

/-- What `signal_act` does about a signal. -/
inductive Delivery
  | ignored
  /-- `_exit(EXIT_FAILURE)`, which does not return. -/
  | terminated
  /-- The handler is called with the number. -/
  | handler (address : BitVec 32) (sig : ℤ)
  /-- The handler is called with the number and the information. -/
  | sigaction (address : BitVec 32) (sig : ℤ) (info : SigInfo)
  /-- There is no entry of `signal_actions` for the number. -/
  | outOfBounds
  deriving DecidableEq, Repr

/-- `SIGURG`, `SIGSTOP`, `SIGTSTP`, `SIGCONT`, `SIGCHLD`, `SIGTTIN` and `SIGTTOU`: the signals
for which `signal_act_default` does nothing. -/
def harmless : List ℤ := [16, 17, 18, 19, 20, 21, 22]

/-- `signal_act_default`. -/
def signalActDefault (info : SigInfo) : Delivery :=
  if info.siSigno ∈ harmless then .ignored else .terminated

/-- `signal_act` for a signal with this action. -/
def Sigaction.deliver (act : Sigaction) (info : SigInfo) : Delivery :=
  if act.saHandler = sigIgn then .ignored
  else if act.saHandler = sigDfl then signalActDefault info
  else if act.saFlags &&& saSiginfo ≠ 0 then .sigaction act.saHandler info.siSigno info
  else .handler act.saHandler info.siSigno

/-- `signal_act`. -/
def signalAct (t : SignalActions) (info : SigInfo) : Delivery :=
  match actionIndex info.siSigno with
  | none => .outOfBounds
  | some i => (t i).deliver info

/-- A signal has an entry in the table. -/
theorem IsSignal.exists_actionIndex {sig : ℤ} (h : IsSignal sig) :
    ∃ i, actionIndex sig = some i := by
  unfold actionIndex
  rw [dif_pos ⟨by have := h.1; omega, h.2⟩]
  exact ⟨_, rfl⟩

end Signal

end Nucleo
