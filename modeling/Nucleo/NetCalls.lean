/-
# What the network clients see of the system

The clients of `sntp.c`, `rfc868_time.c` and `getaddrinfo.c` meet the rest of the system
in the socket calls, the clock and `rand()`.  An `Environment` answers these from a state
of its own, in any way it likes, except that `socket` returns −1 or a descriptor.

A `Machine` holds the static variables of these files, and the socket calls made so far.
Around it a `NetState` keeps a record of what the clients do, which they do not look at:
how many calls of `sntp_gettime` are active, how often `CLOCK_REALTIME` has been set, and
between which readings of the clock each answered exchange took place.
-/
import Nucleo.Lib.Resources
import Nucleo.Clock
import Nucleo.FileTable

namespace Nucleo

namespace Net

open Comp W5100 Resources

/-! ## The environment -/

/-- The options that the clients set with `setsockopt`. -/
inductive SockOpt
  | soRcvtimeo (timeout : Timeval)
  | soSndtimeo (timeout : Timeval)
  deriving DecidableEq, Repr

/-- A socket call, with its arguments. -/
inductive Request
  | socket (type : SockType)
  | setsockopt (sock : ℤ) (opt : SockOpt)
  | connect (sock : ℤ) (addr : SockaddrIn)
  | send (sock : ℤ) (msg : List Byte)
  | sendto (sock : ℤ) (msg : List Byte) (addr : SockaddrIn)
  | recv (sock : ℤ) (len : ℕ)
  | close (sock : ℤ)
  deriving DecidableEq, Repr

/-- The value that a call returns, and what `recv` leaves in the buffer. -/
structure Answer where
  ret : ℤ
  buf : ℕ → Byte

/-- The rest of the system, with a state in `η`. -/
structure Environment (η : Type) where
  answer : Request → η → Answer × η
  /-- The SysTick interrupts since the clocks were last accessed. -/
  ticks : η → ℕ × η
  /-- `systick_get_value`. -/
  systickGetValue : η → BitVec 32 × η
  rand : η → BitVec 32 × η
  rccAhbFrequency : BitVec 32
  neg_one_le_socket : ∀ type e, -1 ≤ (answer (.socket type) e).1.ret

/-! ## The state -/

/-- A socket call that was made, and the value it returned. -/
structure SockCall where
  request : Request
  ret : ℤ
  deriving DecidableEq, Repr

/-- What the call does with a descriptor. -/
def SockCall.use : SockCall → Option (Use ℤ)
  | ⟨.socket _, ret⟩ => if 0 ≤ ret then some (.acquire ret) else none
  | ⟨.setsockopt sock _, _⟩ => some (.use sock)
  | ⟨.connect sock _, _⟩ => some (.use sock)
  | ⟨.send sock _, _⟩ => some (.use sock)
  | ⟨.sendto sock _ _, _⟩ => some (.use sock)
  | ⟨.recv sock _, _⟩ => some (.use sock)
  | ⟨.close sock, _⟩ => some (.release sock)

/-- The static variables, the state of the environment, and the calls made so far. -/
structure Machine (η : Type) where
  env : η
  calls : List SockCall
  clocks : Clocks
  nextSync : Timespec
  clockGettimeMutex : Bool
  sntpServer : InAddr
  rfc868Server : InAddr
  getaddrinfoDnsServer : InAddr

/-- An exchange with an SNTP server that was answered: how often the clock had been set at
the reading that was sent, the machine before the reading that was made for the reply, and
how often the clock had been set after that. -/
structure Exchange (η : Type) where
  stepsAtT1 : ℕ
  beforeT4 : Machine η
  stepsAtT4 : ℕ

/-- The machine and the record of what the clients do. -/
structure NetState (η : Type) extends Machine η where
  active : ℕ
  peak : ℕ
  steps : ℕ
  stepsAtT1 : ℕ
  exchanges : List (Exchange η)

/-- Why a call of a client has not returned. -/
inductive Stop
  /-- The readings of the clock are nested deeper than the bound. -/
  | tooDeep
  /-- It is still in a loop. -/
  | running
  /-- It accessed memory outside of the buffer. -/
  | outside
  | nullDeref
  deriving DecidableEq, Repr

/-- A client. -/
abbrev Client (η α : Type) := Comp (NetState η) Stop α

/-- The machine as the program starts. -/
def Machine.boot {η : Type} (e : η) : Machine η where
  env := e
  calls := []
  clocks := bootClocks
  nextSync := timespecZero
  clockGettimeMutex := false
  sntpServer := 0x1e0f0681
  rfc868Server := 0x1e0f0681
  getaddrinfoDnsServer := 0x08080808

/-- The state at the start. -/
def NetState.boot {η : Type} (e : η) : NetState η where
  toMachine := Machine.boot e
  active := 0
  peak := 0
  steps := 0
  stepsAtT1 := 0
  exchanges := []

/-! ## What a client does -/

section Operations

variable {η α : Type} (E : Environment η)

/-- A socket call. -/
def Machine.call (r : Request) (m : Machine η) : Answer × Machine η :=
  let a := E.answer r m.env
  (a.1, { m with env := a.2, calls := m.calls ++ [⟨r, a.1.ret⟩] })

/-- The interrupts that come before the next access to the clocks. -/
def Machine.elapse (m : Machine η) : Machine η :=
  let t := E.ticks m.env
  { m with env := t.2, clocks := sysTickHandler^[t.1] m.clocks }

/-- `clock_gettime(CLOCK_REALTIME, …)` up to the synchronisation: the turn that the loop accepts,
during which no interrupt comes. -/
def Machine.reading (m : Machine η) : Timespec × Machine η :=
  let m := m.elapse E
  let c := E.systickGetValue m.env
  (timespecAdd m.clocks.realtime (systickFractionToTimespec E.rccAhbFrequency c.1),
    { m with env := c.2 })

/-- An operation on the machine. -/
def onMachine (g : Machine η → α × Machine η) : Client η α :=
  fun s => .ok ((g s.toMachine).1, { s with toMachine := (g s.toMachine).2 })

/-- A call of the environment. -/
def call (r : Request) : Client η Answer := onMachine (Machine.call E r)

/-- `close(sock); return -1;` -/
def closeAndFail (sock : ℤ) : Client η ℤ := do
  let _ ← call E (.close sock)
  pure (-1)

/-- The flag `clock_gettime_mutex`. -/
def setMutex (b : Bool) : Client η PUnit :=
  modify fun s => { s with clockGettimeMutex := b }

/-- A function of the machine followed by something. -/
theorem onMachine_bind {β : Type} (g : Machine η → α × Machine η) (k : α → Client η β)
    (s : NetState η) :
    (onMachine g >>= k) s = k (g s.toMachine).1 { s with toMachine := (g s.toMachine).2 } := rfl

/-- What holds after a function of the machine. -/
@[simp] theorem post_onMachine {g : Machine η → α × Machine η} {Q : α → NetState η → Prop}
    {s : NetState η} :
    Post (onMachine g) Q s ↔ Q (g s.toMachine).1 { s with toMachine := (g s.toMachine).2 } := by
  constructor
  · intro h
    exact h _ _ rfl
  · intro h a s' heq
    cases heq
    exact h

/-- A call leaves the flag. -/
@[simp] theorem call_mutex (r : Request) (m : Machine η) :
    (m.call E r).2.clockGettimeMutex = m.clockGettimeMutex := rfl

@[simp] theorem reading_mutex (m : Machine η) :
    (m.reading E).2.clockGettimeMutex = m.clockGettimeMutex := rfl

/-- It is no call. -/
@[simp] theorem reading_calls (m : Machine η) : (m.reading E).2.calls = m.calls := rfl

end Operations

end Net

end Nucleo
