/-
# The time of an RFC 868 server

`rfc868_gettime` turns the unsigned seconds that a server counts from 1900 into a signed
32-bit number before it compares them with the seconds to 1970, which as a `time_t` are
negative.  The comparison rejects what lies between 2 ^ 31 and 1970, and lets through what
lies below 2 ^ 31.
-/
import Nucleo.NetClients
import Nucleo.SyncSteps

namespace Nucleo

namespace Net

open Comp W5100

variable {η : Type} (E : Environment η)

/-! ## What the server sent -/

/-- The request that `rfc868_connect` makes, and what it returns when it succeeds. -/
def Rfc868Type.request (type : Rfc868Type) (sock : ℤ) (server : InAddr) : Request × ℤ :=
  match type with
  | .tcp => (.connect sock (rfc868Addr server), 0)
  | .udp => (.sendto sock [0] (rfc868Addr server), 1)

/-- The value in the four bytes that the network delivers on a socket, if it connects the
socket or takes the datagram, and delivers four bytes; and zero if not. -/
def exchanged (type : Rfc868Type) (sock : ℤ) (server : InAddr) (m : Machine η) : BitVec 32 :=
  let conn := m.call E (type.request sock server).1
  let got := conn.2.call E (.recv sock 4)
  if conn.1.ret = (type.request sock server).2 ∧ got.1.ret = 4 then htonl (load32 got.1.buf 0)
  else 0

/-- The value that the server sends, and zero if it does not arrive. -/
def received (type : Rfc868Type) (server : InAddr) (m : Machine η) : BitVec 32 :=
  let sock := m.call E (.socket type.sockType)
  if 0 ≤ sock.1.ret then exchanged E type sock.1.ret server sock.2 else 0

variable {E}

/-- A call returns the answer. -/
theorem call_eq (r : Request) (st : NetState η) :
    call E r st
      = .ok ((st.toMachine.call E r).1, { st with toMachine := (st.toMachine.call E r).2 }) := rfl

/-- Connecting returns. -/
theorem rfc868Connect_eq (type : Rfc868Type) (sock : ℤ) (server : InAddr) (st : NetState η) :
    ∃ r, rfc868Connect E type sock server st
        = .ok (r, { st with toMachine := (st.toMachine.call E (type.request sock server).1).2 }) ∧
      (r = 0 ↔ (st.toMachine.call E (type.request sock server).1).1.ret
        = (type.request sock server).2) := by
  cases type with
  | tcp => exact ⟨_, rfl, Iff.rfl⟩
  | udp =>
      unfold rfc868Connect
      dsimp only
      rw [bind_of_ok (call_eq _ st)]
      by_cases hsent : (st.toMachine.call E (.sendto sock [0] (rfc868Addr server))).1.ret = 1
      · rw [if_pos hsent]
        exact ⟨0, rfl, iff_of_true rfl hsent⟩
      · rw [if_neg hsent]
        exact ⟨-1, rfl, iff_of_false (by decide) hsent⟩

/-- The time is that of the first four bytes. -/
theorem recvTime32_eq (sock : ℤ) (st : NetState η) :
    ∃ st', recvTime32 E sock st
      = .ok (if (st.toMachine.call E (.recv sock 4)).1.ret = 4 then
          htonl (load32 (st.toMachine.call E (.recv sock 4)).1.buf 0) else 0, st') := by
  unfold recvTime32
  rw [bind_of_ok (call_eq _ st)]
  by_cases hfour : (st.toMachine.call E (.recv sock 4)).1.ret = 4
  · rw [if_pos hfour, if_pos hfour]
    exact ⟨_, rfl⟩
  · rw [if_neg hfour, if_neg hfour]
    exact ⟨_, rfl⟩

/-- **What an exchange returns**. -/
theorem rfc868Exchange_eq (type : Rfc868Type) (sock : ℤ) (server : InAddr) (st : NetState η) :
    ∃ st', rfc868Exchange E type sock server st
      = .ok (exchanged E type sock server st.toMachine, st') := by
  obtain ⟨r, hconn, hzero⟩ := rfc868Connect_eq (E := E) type sock server st
  unfold rfc868Exchange exchanged
  rw [bind_of_ok hconn]
  dsimp only
  by_cases hr : r = 0
  · obtain ⟨st', hrecv⟩ := recvTime32_eq (E := E) sock
      { st with toMachine := (st.toMachine.call E (type.request sock server).1).2 }
    rw [if_pos hr, hrecv]
    refine ⟨st', ?_⟩
    simp only [hzero.1 hr, true_and]
  · rw [if_neg hr, if_neg fun h => hr (hzero.2 h.1)]
    exact ⟨_, rfl⟩

/-- **What the client receives**: the value, or the zero that stands for a failure. -/
theorem rfc868Gettime32_eq (type : Rfc868Type) (server : InAddr) (st : NetState η) :
    ∃ st', rfc868Gettime32 E type server st = .ok (received E type server st.toMachine, st') := by
  unfold rfc868Gettime32 received
  rw [bind_of_ok (call_eq _ st)]
  dsimp only
  by_cases hsock : 0 ≤ (st.toMachine.call E (.socket type.sockType)).1.ret
  · obtain ⟨st', hexchange⟩ := rfc868Exchange_eq (E := E) type
      (st.toMachine.call E (.socket type.sockType)).1.ret server
      { st with toMachine := (st.toMachine.call E (.socket type.sockType)).2 }
    rw [if_pos hsock, if_pos hsock, bind_of_ok hexchange, bind_of_ok (call_eq _ st')]
    exact ⟨_, rfl⟩
  · rw [if_neg hsock, if_neg hsock]
    exact ⟨_, rfl⟩

/-! ## The time -/

/-- What `rfc868_gettime` owes for a value: the seconds since 1970, or failure. -/
def TimeFor (secs : BitVec 32) (out : Option Timespec) : Prop :=
  if 2208988800 ≤ secs.toNat then ∃ ts, out = some ts ∧ ts.tvSec = (secs.toNat : ℤ) - 2208988800
  else out = none

/-- What `rfc868_gettime` makes of a value. -/
def timeOf (secs : BitVec 32) : Option Timespec :=
  if secs.toInt = 0 then none
  else if secs.toInt < rfc868SecsToEpoch then none
  else some ⟨wrap32 (secs.toInt - rfc868SecsToEpoch), nsecsInSec / 2⟩

/-- Where the time returned is that of the server. -/
theorem timeFor_timeOf_iff (secs : BitVec 32) :
    TimeFor secs (timeOf secs) ↔ secs = 0 ∨ 2 ^ 31 ≤ secs.toNat := by
  have hepoch : rfc868SecsToEpoch = -2085978496 := by decide
  have hzero : secs = 0 ↔ secs.toNat = 0 := by
    rw [BitVec.toNat_eq]
    rfl
  have hlt := secs.isLt
  have hint := BitVec.toInt_eq_toNat_cond secs
  unfold TimeFor timeOf
  rw [hepoch, hzero]
  by_cases hbig : 2208988800 ≤ secs.toNat
  · -- from 1970 on: both the value and the constant are negative, and the difference fits
    rw [if_neg (by omega)] at hint
    rw [if_pos hbig, if_neg (by omega), if_neg (by omega),
      wrap32_of_fits (by omega) (by omega)]
    exact iff_of_true ⟨_, rfl, by dsimp only; omega⟩ (Or.inr (by omega))
  · rw [if_neg hbig]
    by_cases hhalf : 2 ^ 31 ≤ secs.toNat
    · rw [if_neg (by omega)] at hint
      rw [if_neg (by omega), if_pos (by omega)]
      exact iff_of_true rfl (Or.inr hhalf)
    · -- a positive value is never less than the negative constant
      rw [if_pos (by omega)] at hint
      by_cases hsecs : secs.toNat = 0
      · rw [if_pos (by omega)]
        exact iff_of_true rfl (Or.inl hsecs)
      · rw [if_neg (by omega), if_neg (by omega)]
        exact iff_of_false (fun h => Option.some_ne_none _ h) (by omega)

/-- **`rfc868_gettime`**: it stores the seconds since 1970, or fails, except for the values
from 1 to 2 ^ 31 - 1, for which it succeeds. -/
theorem rfc868Gettime_iff (type : Rfc868Type) (st : NetState η) :
    ∃ out st', rfc868Gettime E type st = .ok (out, st') ∧
      (TimeFor (received E type st.rfc868Server st.toMachine) out ↔
        received E type st.rfc868Server st.toMachine = 0 ∨
          2 ^ 31 ≤ (received E type st.rfc868Server st.toMachine).toNat) := by
  obtain ⟨st', hgot⟩ := rfc868Gettime32_eq (E := E) type st.rfc868Server st
  refine ⟨timeOf (received E type st.rfc868Server st.toMachine), st', ?_,
    timeFor_timeOf_iff _⟩
  unfold rfc868Gettime timeOf
  rw [get_bind, bind_of_ok hgot]
  split_ifs <;> rfl

/-- A server that sends the value 1, a second after the beginning of 1900. -/
def secondOf1900 : List Answer :=
  [returns 3, returns 1, ⟨4, fun k => (bytes32 (htonl 1)).getD k 0⟩, returns 0]

/-- **A time before 1970 is taken**, as one after 2036. -/
theorem rfc868Gettime_of_1900 :
    ¬ ∀ (type : Rfc868Type) (st : NetState (List Answer)) (out : Option Timespec)
      (st' : NetState (List Answer)), rfc868Gettime scripted type st = .ok (out, st') →
      TimeFor (received scripted type st.rfc868Server st.toMachine) out := by
  have hsecs : received scripted .udp (NetState.boot secondOf1900).rfc868Server
      (NetState.boot secondOf1900).toMachine = 1 := by decide
  have hout : ∃ st', rfc868Gettime scripted .udp (NetState.boot secondOf1900)
      = .ok (some ⟨2085978497, 500000000⟩, st') := ⟨_, rfl⟩
  obtain ⟨st', hout⟩ := hout
  intro h
  have htime := h .udp _ _ _ hout
  rw [hsecs] at htime
  unfold TimeFor at htime
  rw [if_neg (by decide)] at htime
  exact Option.some_ne_none _ htime

end Net

end Nucleo
