/-
# `rfc868_gettime` and `getaddrinfo`

Two more clients of the socket layer.  `rfc868_time.c` can be built for TCP or for UDP,
its default.  Of `getaddrinfo.c` this is the half that talks to the server; what it does
with a response is `Dns.processResponse`, and `post_recvDnsResponse` says that the loop
around it is the one of `Dns.recvDnsResponse` on what `recv` delivers.
-/
import Nucleo.NetCalls
import Nucleo.DnsMessage

namespace Nucleo

namespace Net

open Comp W5100

variable {η : Type} (E : Environment η)

/-! ## `rfc868_time.c` -/

/-- `RFC868_TYPE`. -/
inductive Rfc868Type
  | tcp | udp
  deriving DecidableEq, Repr

/-- The `sock_type` of `rfc868_gettime32`. -/
def Rfc868Type.sockType : Rfc868Type → SockType
  | .tcp => .stream
  | .udp => .dgram

/-- The address of a server and the port of RFC 868. -/
def rfc868Addr (server : InAddr) : SockaddrIn := ⟨.inet, htons 37, server⟩

/-- `recv_time32`. -/
def recvTime32 (sock : ℤ) : Client η (BitVec 32) := do
  let got ← call E (.recv sock 4)
  if got.ret = 4 then pure (htonl (load32 got.buf 0)) else pure 0

/-- `rfc868_connect`: over UDP it sends a byte. -/
def rfc868Connect (type : Rfc868Type) (sock : ℤ) (server : InAddr) : Client η ℤ :=
  match type with
  | .tcp => do
      let conn ← call E (.connect sock (rfc868Addr server))
      pure conn.ret
  | .udp => do
      let sent ← call E (.sendto sock [0] (rfc868Addr server))
      if sent.ret = 1 then pure 0 else pure (-1)

/-- What `rfc868_gettime32` does with the socket before it closes it. -/
def rfc868Exchange (type : Rfc868Type) (sock : ℤ) (server : InAddr) :
    Client η (BitVec 32) := do
  let res ← rfc868Connect E type sock server
  if res = 0 then recvTime32 E sock else pure 0

/-- `rfc868_gettime32`. -/
def rfc868Gettime32 (type : Rfc868Type) (server : InAddr) : Client η (BitVec 32) := do
  let sock ← call E (.socket type.sockType)
  if 0 ≤ sock.ret then
    let secs ← rfc868Exchange E type sock.ret server
    let _ ← call E (.close sock.ret)
    pure secs
  else pure 0

/-- `secs_to_epoch`, a `time_t`. -/
def rfc868SecsToEpoch : ℤ := wrap32 2208988800

/-- `rfc868_gettime`: `none` for −1, and otherwise what is stored in `*ts`. -/
def rfc868Gettime (type : Rfc868Type) : Client η (Option Timespec) := do
  let s ← get
  let secs ← rfc868Gettime32 E type s.rfc868Server
  let tpSecs := secs.toInt
  if tpSecs = 0 then pure none
  else if tpSecs < rfc868SecsToEpoch then pure none
  else pure (some ⟨wrap32 (tpSecs - rfc868SecsToEpoch), nsecsInSec / 2⟩)

/-! ## `getaddrinfo.c` -/

/-- The timeout of the socket, a second. -/
def dnsTimeout : Timeval := ⟨1, 0⟩

/-- The address of a server and the port of DNS. -/
def dnsAddr (server : InAddr) : SockaddrIn := ⟨.inet, htons 53, server⟩

/-- `create_socket`. -/
def createSocket (server : InAddr) : Client η ℤ := do
  let sock ← call E (.socket .dgram)
  if sock.ret = -1 then pure (-1)
  else
    let rcv ← call E (.setsockopt sock.ret (.soRcvtimeo dnsTimeout))
    if rcv.ret = -1 then closeAndFail E sock.ret
    else
      let snd ← call E (.setsockopt sock.ret (.soSndtimeo dnsTimeout))
      if snd.ret = -1 then closeAndFail E sock.ret
      else
        let conn ← call E (.connect sock.ret (dnsAddr server))
        if conn.ret = -1 then closeAndFail E sock.ret else pure sock.ret

/-- A label of QNAME: its length, as a byte, and its text. -/
def qnameLabel (label : List Byte) : List Byte := BitVec.ofNat 8 label.length :: label

/-- The labels of a name; the first argument is the label that is being copied. -/
def qnameLabels : Option (List Byte) → List Byte → List Byte
  | none, [] => []
  | some label, [] => qnameLabel label
  | label, c :: name =>
      if c = 0x2E then qnameLabel (label.getD []) ++ qnameLabels none name
      else qnameLabels (some (label.getD [] ++ [c])) name

/-- The query for a name. -/
def dnsQuery (id : BitVec 16) (name : List Byte) : List Byte :=
  bytes16 (htons id) ++ [0x01, 0x00] ++ bytes16 (htons 1) ++ List.replicate 6 0 ++
    qnameLabels none name ++ [0x00] ++ bytes16 (htons Dns.typeA) ++ bytes16 (htons Dns.classIn)

example : dnsQuery 0x1234 [0x61, 0x62, 0x2E, 0x63] =
    [0x12, 0x34, 1, 0, 0, 1, 0, 0, 0, 0, 0, 0, 2, 0x61, 0x62, 1, 0x63, 0, 0, 1, 0, 1] := by
  decide

/-- `rand()`, of which `send_dns_query` keeps 16 bits. -/
def randId : Client η (BitVec 16) :=
  onMachine fun m =>
    let r := E.rand m.env
    (r.1.setWidth 16, { m with env := r.2 })

/-- `send_dns_query`: the value it returns and `*id`. -/
def sendDnsQuery (sock : ℤ) (nodename : Option (List Byte)) : Client η (ℤ × BitVec 16) := do
  let id ← randId E
  match nodename with
  | none => throw .nullDeref
  | some name =>
      if Dns.dnsMsgLen < (dnsQuery id name).length then throw .outside
      else
        let sent ← call E (.send sock (dnsQuery id name))
        if sent.ret < 0 then pure (Dns.eaiSystem, id) else pure (0, id)

/-- Why reading a response has not returned. -/
def Stop.ofDns : Dns.DnsStop → Stop
  | .running => .running
  | .outside => .outside
  | .nullDeref => .nullDeref

/-- A round of the loop of `recv_dns_response`. -/
def recvDnsRound (fuel : ℕ) (sock : ℤ) (id : BitVec 16) :
    Unit → Client η (Unit ⊕ (ℤ × Option (List Dns.AddrInfo))) := fun _ => do
  let got ← call E (.recv sock Dns.dnsMsgLen)
  if got.ret < 0 then pure (.inr (Dns.eaiSystem, none))
  else
    match Dns.processResponse ⟨got.buf, Dns.dnsMsgLen⟩ fuel got.ret.toNat id with
    | .error e => throw (Stop.ofDns e)
    | .ok none => pure (.inl ())
    | .ok (some r) => pure (.inr r)

/-- `recv_dns_response`: the value it returns and what it stores in `*res`. -/
def recvDnsResponse (fuel : ℕ) (sock : ℤ) (id : BitVec 16) :
    Client η (ℤ × Option (List Dns.AddrInfo)) :=
  iter .running (recvDnsRound E fuel sock id) fuel ()

/-! ### The calls -/

/-- The members of `hints` that `getaddrinfo` checks. -/
structure Hints where
  aiFamily : ℤ
  aiSocktype : ℤ
  deriving DecidableEq, Repr

def afInet : ℤ := 1
def afUnspec : ℤ := 4
def sockStream : ℤ := 1
def eaiFamily : ℤ := 4
def eaiSocktype : ℤ := 8

/-- The checks of `hints`, with the error of the first that fails. -/
def Hints.check (hints : Hints) : Option ℤ :=
  if hints.aiFamily ≠ afUnspec ∧ hints.aiFamily ≠ afInet ∧ hints.aiFamily ≠ 0 then
    some eaiFamily
  else if hints.aiSocktype ≠ Dns.sockDgram ∧ hints.aiSocktype ≠ sockStream ∧
      hints.aiSocktype ≠ 0 then
    some eaiSocktype
  else none

/-- `send_dns_query` and `recv_dns_response` on the socket of `getaddrinfo`. -/
def dnsExchange (fuel : ℕ) (sock : ℤ) (nodename : Option (List Byte)) :
    Client η (ℤ × Option (List Dns.AddrInfo)) := do
  let query ← sendDnsQuery E sock nodename
  if query.1 ≠ 0 then pure (query.1, none) else recvDnsResponse E fuel sock query.2

/-- `getaddrinfo`: the value it returns and what it stores in `*res`. -/
def getaddrinfo (fuel : ℕ) (nodename servname : Option (List Byte)) (hints : Option Hints) :
    Client η (ℤ × Option (List Dns.AddrInfo)) := do
  if nodename.isNone ∧ servname.isNone then pure (Dns.eaiNoname, none)
  else
    match hints.bind Hints.check with
    | some err => pure (err, none)
    | none =>
        let s ← get
        let sock ← createSocket E s.getaddrinfoDnsServer
        if sock = -1 then pure (Dns.eaiSystem, none)
        else
          let ret ← dnsExchange E fuel sock nodename
          let _ ← call E (.close sock)
          pure ret

/-! ## The loop that reads the response -/

section Response

variable {E}

/-- How a round that received `got` goes on. -/
def RoundOn (fuel : ℕ) (id : BitVec 16) (got : ℤ × (ℕ → Byte)) :
    Unit ⊕ (ℤ × Option (List Dns.AddrInfo)) → Prop
  | .inl () => ∀ rest,
      Dns.recvDnsResponse fuel id (got :: rest) = Dns.recvDnsResponse fuel id rest
  | .inr ret => ∀ rest, Dns.recvDnsResponse fuel id (got :: rest) = .ok ret

theorem post_recvDnsRound (fuel : ℕ) (sock : ℤ) (id : BitVec 16) (s : NetState η) :
    Post (recvDnsRound E fuel sock id ()) (fun r _ => ∃ got, RoundOn fuel id got r) s := by
  unfold recvDnsRound call
  rw [post_bind, post_onMachine, post_ite, post_pure]
  generalize (s.toMachine.call E (.recv sock Dns.dnsMsgLen)).1 = a
  refine ⟨fun hneg => ⟨(a.ret, a.buf), fun rest => ?_⟩, fun hneg => ?_⟩
  · unfold Dns.recvDnsResponse
    rw [if_pos hneg]
    rfl
  · cases hproc : Dns.processResponse ⟨a.buf, Dns.dnsMsgLen⟩ fuel a.ret.toNat id with
    | error e => exact post_throw.2 trivial
    | ok r =>
        cases r with
        | none =>
            refine post_pure.2 ⟨(a.ret, a.buf), fun rest => ?_⟩
            conv_lhs => unfold Dns.recvDnsResponse
            rw [if_neg hneg, hproc]
            rfl
        | some ret =>
            refine post_pure.2 ⟨(a.ret, a.buf), fun rest => ?_⟩
            conv_lhs => unfold Dns.recvDnsResponse
            rw [if_neg hneg, hproc]
            rfl

/-- **The loop is the one that reads a list of responses**, on what `recv` delivered. -/
theorem post_recvDnsResponse (fuel : ℕ) (sock : ℤ) (id : BitVec 16) (s : NetState η) :
    Post (recvDnsResponse E fuel sock id)
      (fun ret _ => ∃ got, Dns.recvDnsResponse fuel id got = .ok ret) s := by
  have hloop : ∀ n s, Post (iter .running (recvDnsRound E fuel sock id) n ())
      (fun ret _ => ∃ got, Dns.recvDnsResponse fuel id got = .ok ret) s := by
    intro n
    induction n with
    | zero => exact fun s => post_throw.2 trivial
    | succ n ih =>
        intro s
        unfold iter
        rw [post_bind]
        refine (post_recvDnsRound fuel sock id s).mono ?_
        rintro r s' ⟨got, hgot⟩
        cases r with
        | inl u =>
            refine (ih s').mono ?_
            rintro ret - ⟨rest, hrest⟩
            exact ⟨got :: rest, (hgot rest).trans hrest⟩
        | inr ret => exact post_pure.2 ⟨[got], hgot []⟩
  exact hloop fuel s

end Response

end Net

end Nucleo
