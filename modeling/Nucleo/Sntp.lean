/-
# The SNTP client and the synchronisation of the clock

`sntp.c`, `timesync.c` and the part of `clock_gettime` that synchronises
`CLOCK_REALTIME`, with the configuration the sources default to (`TIMESYNC_METHOD_SNTP`).

The functions call each other in a circle: an exchange reads the clock twice, and a
reading of the clock may start an exchange.  `sntpGettime` and the functions of
`timesync.c` take the reading of the clock as an argument, and `clockGettime` ties the
knot with a bound on the depth; a nested reading beyond the bound stops with `tooDeep`.
-/
import Nucleo.NetCalls

namespace Nucleo

namespace Net

open Comp W5100

/-! ## NTP timestamps -/

/-- `SECS_TO_EPOCH`: NTP time starts in 1900, POSIX time in 1970. -/
def secsToEpoch : BitVec 32 := 2208988800

/-- `struct ntp_timestamp`, in network byte order. -/
structure NtpTimestamp where
  ntpSec : BitVec 32
  ntpFract : BitVec 32
  deriving DecidableEq, Repr

/-- `lsrr`: a logic shift to the right, rounded. -/
def lsrr (v : BitVec 32) (shift : ℕ) : BitVec 32 :=
  if 0 < shift then
    let round : BitVec 32 := 1 <<< (shift - 1)
    let v := if v < 0xFFFFFFFF - round then v + round else v
    v >>> shift
  else v

/-- `ntp_to_timespec`. -/
def ntpToTimespec (nt : NtpTimestamp) : Timespec :=
  let fract := lsrr (htonl nt.ntpFract) 18
  ⟨(htonl nt.ntpSec - secsToEpoch).toInt, (fract * lsrr 1000000000 (32 - 18)).toInt⟩

/-- `inv_nsecs_in_sec`. -/
def invNsecsInSec : BitVec 32 := 281475

/-- `timespec_to_ntp`. -/
def timespecToNtp (ts : Timespec) : NtpTimestamp :=
  ⟨htonl (BitVec.ofInt 32 ts.tvSec + secsToEpoch),
    htonl (lsrr (BitVec.ofInt 32 ts.tvNsec) 16 * invNsecsInSec)⟩

/-- `timespec_half`; the divisions truncate. -/
def timespecHalf (t : Timespec) : Timespec :=
  if t.tvSec % 2 = 1 then
    ⟨(wrap32 (t.tvSec - 1)).tdiv 2, (wrap32 (t.tvNsec + nsecsInSec)).tdiv 2⟩
  else ⟨t.tvSec.tdiv 2, t.tvNsec.tdiv 2⟩

/-- `system_clock_estimate`: `t4` moved by `((t2 - t1) + (t3 - t4)) / 2`. -/
def systemClockEstimate (t1 t2 t3 t4 : Timespec) : Timespec :=
  let t21 := timespecHalf (timespecDiff t2 t1).1
  let t34 := timespecHalf (timespecDiff t3 t4).1
  timespecAdd t4 (timespecAdd t21 t34)

/-! ## Messages -/

/-- `sizeof(ntp_message)`: twelve words. -/
def ntpMessageSize : ℕ := 48

def ntpModeClient : BitVec 32 := 3
def ntpModeServer : BitVec 32 := 4
def ntpVersion : BitVec 32 := 4

/-- The message of `sntp_request`. -/
def requestMessage (transmit : Timespec) : List Byte :=
  let hdr : BitVec 32 := (ntpModeClient <<< 24) ||| (ntpVersion <<< 27)
  let nt := timespecToNtp transmit
  (htonl hdr :: List.replicate 9 0 ++ [nt.ntpSec, nt.ntpFract]).flatMap bytes32

/-- The word number `k` of a received message. -/
def messageWord (buf : ℕ → Byte) (k : ℕ) : BitVec 32 := load32 buf (4 * k)

/-- `memcpy` of two words into an `ntp_timestamp`. -/
def messageTime (buf : ℕ → Byte) (k : ℕ) : Timespec :=
  ntpToTimespec ⟨messageWord buf k, messageWord buf (k + 1)⟩

/-- The two checks of the header in `sntp_reply`. -/
def isServerReply (buf : ℕ → Byte) : Bool :=
  let hdr := htonl (messageWord buf 0)
  (hdr &&& (7 <<< 24)) >>> 24 = ntpModeServer && (hdr &&& (7 <<< 27)) >>> 27 = ntpVersion

/-- The time that `sntp_reply` takes from a message, for its own reading `t4`. -/
def replyTime (buf : ℕ → Byte) (t4 : Timespec) : Timespec :=
  systemClockEstimate (messageTime buf 6) (messageTime buf 8) (messageTime buf 10) t4

/-! ## `sntp.c` -/

section Clients

variable {η : Type} (E : Environment η)

/-- The timeout of the sockets, a second. -/
def sntpTimeout : Timeval := ⟨1, 0⟩

/-- The address of a server and the port that SNTP uses. -/
def sntpAddr (server : InAddr) : SockaddrIn := ⟨.inet, htons 123, server⟩

/-- Record how often the clock has been set at the reading that is sent. -/
def recordT1 : Client η PUnit := modify fun s => { s with stepsAtT1 := s.steps }

/-- Record the exchange that the reading for a reply completes; `before` is the state in
which that reading was made. -/
def recordT4 (before : NetState η) : Client η PUnit :=
  modify fun s =>
    { s with exchanges := s.exchanges ++ [⟨before.stepsAtT1, before.toMachine, s.steps⟩] }

/-- `sntp_request`. -/
def sntpRequest (clock : Client η Timespec) (sock : ℤ) (server : InAddr) : Client η ℤ := do
  let transmit ← clock
  recordT1
  let sent ← call E (.sendto sock (requestMessage transmit) (sntpAddr server))
  if sent.ret = ntpMessageSize then pure 0 else pure (-1)

/-- `sntp_reply`: `none` for −1, and otherwise what is stored in `*ts`. -/
def sntpReply (clock : Client η Timespec) (sock : ℤ) : Client η (Option Timespec) := do
  let got ← call E (.recv sock ntpMessageSize)
  if got.ret = ntpMessageSize then
    if isServerReply got.buf then
      let before ← get
      let t4 ← clock
      recordT4 before
      pure (some (replyTime got.buf t4))
    else pure none
  else pure none

/-- `sntp_socket`. -/
def sntpSocket : Client η ℤ := do
  let sock ← call E (.socket .dgram)
  if 0 ≤ sock.ret then
    let rcv ← call E (.setsockopt sock.ret (.soRcvtimeo sntpTimeout))
    if rcv.ret = -1 then closeAndFail E sock.ret
    else
      let snd ← call E (.setsockopt sock.ret (.soSndtimeo sntpTimeout))
      if snd.ret = -1 then closeAndFail E sock.ret else pure sock.ret
  else pure sock.ret

/-- A call of `sntp_gettime` begins. -/
def NetState.enter (s : NetState η) : NetState η :=
  { s with active := s.active + 1, peak := max s.peak (s.active + 1) }

/-- A call of `sntp_gettime` ends. -/
def NetState.leave (s : NetState η) : NetState η := { s with active := s.active - 1 }

/-- A call counts as active while it runs. -/
def whileActive {α : Type} (x : Client η α) : Client η α := do
  modify NetState.enter
  let a ← x
  modify NetState.leave
  pure a

/-- `sntp_timeserver_set`. -/
def sntpTimeserverSet (server : InAddr) : Client η PUnit :=
  modify fun s => { s with sntpServer := server }

/-- `sntp_request` and `sntp_reply` on the socket of an exchange. -/
def sntpExchange (clock : Client η Timespec) (sock : ℤ) : Client η (Option Timespec) := do
  let s ← get
  let res ← sntpRequest E clock sock s.sntpServer
  if res = 0 then sntpReply E clock sock else pure none

/-- `sntp_gettime`: `none` for −1, and otherwise what is stored in `*ts`. -/
def sntpGettime (clock : Client η Timespec) : Client η (Option Timespec) :=
  whileActive do
    let sock ← sntpSocket E
    if 0 ≤ sock then
      let out ← sntpExchange E clock sock
      let _ ← call E (.close sock)
      pure out
    else pure none

/-! ## `timesync.c` -/

/-- `sync_interval`, a day. -/
def syncInterval : Timespec := ⟨60 * 60 * 24, 0⟩

/-- `time_to_sync`. -/
def timeToSync (nextSync : Timespec) : Option Timespec → Bool
  | none => true
  | some now => 0 ≤ (timespecDiff now nextSync).2

/-- `clock_settime(CLOCK_REALTIME, &now)`, and `next_sync` when it succeeds. -/
def setRealtime (now : Timespec) : Client η Bool := do
  let s ← get
  let m := s.toMachine.elapse E
  match clockSettime m.clocks .realtime (some now) with
  | .error _ =>
      set { s with toMachine := m }
      pure false
  | .ok clocks =>
      set { s with
        toMachine := { m with clocks := clocks, nextSync := timespecAdd now syncInterval }
        steps := s.steps + 1 }
      pure true

/-- `timesync_now_timespec`: the value it returns, and what it stores in `*out`. -/
def timesyncNowTimespec (clock : Client η Timespec) : Client η (ℤ × Option Timespec) := do
  match ← sntpGettime E clock with
  | none => pure (-1, none)
  | some now =>
      if ← setRealtime E now then pure (1, some now) else pure (-1, none)

/-- `timesync_timespec`. -/
def timesyncTimespec (clock : Client η Timespec) (now : Option Timespec) :
    Client η (ℤ × Option Timespec) := do
  let s ← get
  if timeToSync s.nextSync now then timesyncNowTimespec E clock else pure (0, none)

/-! ## `clock_gettime` and the entry points -/

/-- `clock_gettime(CLOCK_REALTIME, …)`, the value it stores; the argument bounds how deep
readings may be nested. -/
def clockGettime : ℕ → Client η Timespec
  | 0 => throw .tooDeep
  | depth + 1 => do
      let tp ← onMachine (Machine.reading E)
      let s ← get
      if s.clockGettimeMutex then pure tp
      else
        setMutex true
        let synced ← timesyncTimespec E (clockGettime depth) (some tp)
        setMutex false
        pure (synced.2.getD tp)

/-- `timesync`. -/
def timesync (depth : ℕ) : Client η ℤ := do
  let now ← clockGettime E depth
  let r ← timesyncTimespec E (clockGettime E depth) (some now)
  pure r.1

/-- `timesync_now`. -/
def timesyncNow (depth : ℕ) : Client η ℤ := do
  let r ← timesyncNowTimespec E (clockGettime E depth)
  pure r.1

/-- A call that the program makes from outside of these files. -/
inductive Entry
  | clockGettime
  | timesync
  | timesyncNow
  | sntpGettime
  | sntpTimeserverSet (server : InAddr)
  deriving DecidableEq, Repr

/-- The value that the call returns. -/
def Entry.exec (depth : ℕ) : Entry → Client η ℤ
  | .clockGettime => do
      let _ ← Net.clockGettime E depth
      pure 0
  | .timesync => Net.timesync E depth
  | .timesyncNow => Net.timesyncNow E depth
  | .sntpGettime => do
      let out ← Net.sntpGettime E (Net.clockGettime E depth)
      pure (if out.isSome then 0 else -1)
  | .sntpTimeserverSet server => do
      Net.sntpTimeserverSet server
      pure 0

/-- The state after a list of calls made one after the other from the start of the
program, if all of them return. -/
def runCalls (depth : ℕ) (calls : List Entry) (e : η) : Option (NetState η) :=
  runList (Entry.exec E depth) (fun _ _ => true) calls (NetState.boot e)

end Clients

end Net

end Nucleo
