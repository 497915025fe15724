/-
# The network clients give back their descriptors

What a client does with descriptors by the time it returns is a balanced trace: each
descriptor that `socket` gave it is closed once, none is used after that, and no other is
touched.  For `sntp_gettime` this includes the exchanges that its readings of the clock
start: a reading of the clock is itself balanced, by induction on the depth of the nesting.

`dhcp_step` is modelled in `DhcpClient` with its clock readings as inputs; the traces of
the readings are woven into its own, anywhere.
-/
import Nucleo.SyncSteps
import Nucleo.NetClients
import Nucleo.DhcpClient
import Nucleo.W5100Socket

namespace Nucleo

namespace Net

open Comp W5100 Resources

variable {η α : Type} {E : Environment η}

/-- The `socket` of `w5100_socket.c` returns −1 or a descriptor, as every environment does. -/
theorem post_w5100_socket {χ φ : Type} (B : Board χ) (domain : Family) (type : SockType)
    (protocol : ℤ) (w : World χ φ) :
    Post (socket B domain type protocol) (fun r _ => -1 ≤ r) w := by
  unfold socket
  simp only [post_ite, post_fail]
  refine ⟨fun _ => le_refl _, fun _ => ⟨fun _ => le_refl _, fun _ => ⟨fun _ => le_refl _,
    fun _ => ?_⟩⟩⟩
  unfold socketCreate
  rw [post_bind]
  intro r w₁ _
  cases r with
  | none => exact post_fail.2 (le_refl _)
  | some isocket =>
      dsimp only
      rw [post_bind]
      intro r w₂ _
      cases r with
      | none =>
          dsimp only
          rw [post_bind]
          intro _ w₃ _
          exact post_fail.2 (le_refl _)
      | some d =>
          dsimp only
          simp only [post_bind, post_pure]
          intro _ _ _ _ _ _ _ _ _
          omega

/-! ## The uses that a client adds -/

/-- What was done with descriptors so far. -/
def NetState.uses (s : NetState η) : List (Use ℤ) := s.calls.filterMap SockCall.use

/-- A call is recorded as one use. -/
theorem uses_call (r : Request) (s : NetState η) :
    NetState.uses { s with toMachine := (s.toMachine.call E r).2 }
      = s.uses ++ (SockCall.use ⟨r, (E.answer r s.env).1.ret⟩).toList := by
  show (s.calls ++ [_]).filterMap SockCall.use = _
  rw [List.filterMap_append, List.filterMap_cons]
  cases SockCall.use ⟨r, (E.answer r s.env).1.ret⟩ with
  | none => rfl
  | some u => rfl

/-- A call on a descriptor that is held. -/
theorem appends_call {r : Request} {sock : ℤ}
    (hr : ∀ ret, SockCall.use ⟨r, ret⟩ = some (.use sock)) :
    Appends NetState.uses (BalancedWith sock) (call E r) := by
  intro s
  refine post_onMachine.2 ⟨[.use sock], ?_, balancedWith_use sock⟩
  rw [uses_call, hr]
  rfl

/-- `close` is recorded as the release of its descriptor. -/
theorem post_close (sock : ℤ) (s : NetState η) :
    Post (call E (.close sock)) (fun _ s' => s'.uses = s.uses ++ [.release sock]) s :=
  post_onMachine.2 (uses_call _ s)

/-- `socket` returns −1 or a descriptor. -/
theorem post_socket (type : SockType) (s : NetState η) :
    Post (call E (.socket type)) (fun a s' =>
      (0 ≤ a.ret ∧ s'.uses = s.uses ++ [.acquire a.ret]) ∨ (a.ret = -1 ∧ s'.uses = s.uses)) s := by
  refine post_onMachine.2 ?_
  rw [uses_call]
  have hlow := E.neg_one_le_socket type s.env
  by_cases hret : 0 ≤ (E.answer (.socket type) s.env).1.ret
  · refine Or.inl ⟨hret, ?_⟩
    show _ ++ (if 0 ≤ _ then some _ else none : Option (Use ℤ)).toList = _
    rw [if_pos hret]
    rfl
  · refine Or.inr ⟨?_, ?_⟩
    · show (E.answer (.socket type) s.env).1.ret = -1
      omega
    · show _ ++ (if 0 ≤ _ then some _ else none : Option (Use ℤ)).toList = _
      rw [if_neg hret]
      exact List.append_nil _

/-! ## Opening and closing -/

/-- With `sock` open, the computation returns it still open, or closes it and returns −1. -/
def Hands (sock : ℤ) (x : Client η ℤ) : Prop :=
  ∀ s, Post x (fun r s' => ∃ t, BalancedWith sock t ∧
    (r = sock ∧ s'.uses = s.uses ++ t ∨ r = -1 ∧ s'.uses = s.uses ++ (t ++ [.release sock]))) s

theorem hands_pure (sock : ℤ) : Hands sock (pure sock : Client η ℤ) :=
  fun _ => post_pure.2 ⟨[], fun _ _ => rfl, Or.inl ⟨rfl, (List.append_nil _).symm⟩⟩

/-- Closing and failing gives it back. -/
theorem hands_closeAndFail (sock : ℤ) : Hands sock (closeAndFail E sock) := by
  intro s
  unfold closeAndFail
  rw [post_bind]
  refine (post_close sock s).mono fun _ s' huses => post_pure.2 ?_
  exact ⟨[], fun _ _ => rfl, Or.inr ⟨rfl, huses⟩⟩

/-- A branch hands the descriptor on when both sides do. -/
theorem Hands.ite {sock : ℤ} {c : Prop} [Decidable c] {x y : Client η ℤ} (hx : Hands sock x)
    (hy : Hands sock y) : Hands sock (if c then x else y) := by
  by_cases hc : c
  · rw [if_pos hc]
    exact hx
  · rw [if_neg hc]
    exact hy

/-- A call on the open socket comes first. -/
theorem Hands.after {sock : ℤ} {x : Client η α} {f : α → Client η ℤ}
    (hx : Appends NetState.uses (BalancedWith sock) x) (hf : ∀ a, Hands sock (f a)) :
    Hands sock (x >>= f) := by
  intro s
  rw [post_bind]
  refine (hx s).mono ?_
  rintro a s₁ ⟨t, heq, ht⟩
  refine (hf a s₁).mono ?_
  rintro r s₂ ⟨t', ht', hr⟩
  refine ⟨t ++ t', ht.append ht', ?_⟩
  rcases hr with ⟨hr, heq'⟩ | ⟨hr, heq'⟩
  · exact Or.inl ⟨hr, by rw [heq', heq, List.append_assoc]⟩
  · exact Or.inr ⟨hr, by rw [heq', heq, List.append_assoc, List.append_assoc]⟩

/-- The computation returns a descriptor that it opened and holds, or −1 and holds none. -/
def Opens (x : Client η ℤ) : Prop :=
  ∀ s, Post x (fun sock s' =>
    (0 ≤ sock ∧ ∃ t, BalancedWith sock t ∧ s'.uses = s.uses ++ .acquire sock :: t) ∨
      (sock = -1 ∧ ∃ t, Balanced t ∧ s'.uses = s.uses ++ t)) s

/-- **The rule for `socket`**: a descriptor that is opened has to be handed on. -/
theorem Opens.of_hands {type : SockType} {f : Answer → Client η ℤ}
    (hopen : ∀ a : Answer, 0 ≤ a.ret → Hands a.ret (f a))
    (hfail : ∀ a : Answer, a.ret = -1 → f a = pure (-1)) :
    Opens (call E (.socket type) >>= f) := by
  intro s
  rw [post_bind]
  refine (post_socket type s).mono ?_
  rintro a s₁ (⟨hret, huses⟩ | ⟨hret, huses⟩)
  · refine (hopen a hret s₁).mono ?_
    rintro r s₂ ⟨t, ht, ⟨rfl, heq⟩ | ⟨rfl, heq⟩⟩
    · exact Or.inl ⟨hret, t, ht, by rw [heq, huses, List.append_assoc]; rfl⟩
    · exact Or.inr ⟨rfl, _, ht.bracket, by rw [heq, huses, List.append_assoc]; rfl⟩
  · rw [hfail a hret]
    exact post_pure.2 (Or.inr ⟨rfl, [], balanced_nil, huses.trans (List.append_nil _).symm⟩)

/-- **A socket that is opened, used and closed** leaves nothing behind. -/
theorem Opens.closed {x : Client η ℤ} {f rest : ℤ → Client η α} (hx : Opens x)
    (hf : ∀ sock, Appends NetState.uses (BalancedWith sock) (f sock))
    (hopen : ∀ sock, 0 ≤ sock → rest sock = (do
      let a ← f sock
      let _ ← call E (.close sock)
      pure a))
    (hfail : Keeps NetState.uses (rest (-1))) : Appends NetState.uses Balanced (x >>= rest) := by
  intro s
  rw [post_bind]
  refine (hx s).mono ?_
  rintro sock s₁ (⟨hsock, t, ht, heq⟩ | ⟨rfl, t, ht, heq⟩)
  · rw [hopen sock hsock, post_bind]
    refine (hf sock s₁).mono ?_
    rintro a s₂ ⟨t', heq', ht'⟩
    rw [post_bind]
    refine (post_close sock s₂).mono fun _ s₃ heq₃ => post_pure.2 ?_
    refine ⟨_, ?_, (ht.append ht').bracket⟩
    rw [heq₃, heq', heq]
    simp
  · exact (hfail s₁).mono fun b s₂ heq₂ => ⟨t, heq₂.trans heq, ht⟩

/-! ## The SNTP client -/

section Sntp

variable {clock : Client η Timespec}

/-- Looking at the state is no use of a descriptor. -/
theorem appends_get {T : List (Use ℤ) → Prop} (hT : Closed T) :
    Appends NetState.uses T (get : Client η (NetState η)) := appends_of_keeps hT keeps_get

theorem keeps_recordT1 : Keeps NetState.uses (recordT1 : Client η PUnit) :=
  keeps_modify fun _ => rfl

theorem keeps_recordT4 (before : NetState η) : Keeps NetState.uses (recordT4 before) :=
  keeps_modify fun _ => rfl

/-- The flag around a client is no use of a descriptor. -/
theorem appends_whileActive {x : Client η α} (hx : Appends NetState.uses Balanced x) :
    Appends NetState.uses Balanced (whileActive x) := by
  have hcl : Closed (Balanced (ρ := ℤ)) := closed_balanced
  have henter : Keeps NetState.uses (modify NetState.enter : Client η PUnit) :=
    keeps_modify fun _ => rfl
  have hleave : Keeps NetState.uses (modify NetState.leave : Client η PUnit) :=
    keeps_modify fun _ => rfl
  refine (appends_of_keeps hcl henter).bind hcl fun _ => hx.bind hcl fun _ => ?_
  exact (appends_of_keeps hcl hleave).bind hcl fun _ => appends_pure hcl _

/-- The socket of SNTP is opened and bound, or closed again. -/
theorem opens_sntpSocket : Opens (sntpSocket E) := by
  refine Opens.of_hands (fun a hret => ?_) fun a hret => ?_
  · rw [if_pos hret]
    refine Hands.after (appends_call fun _ => rfl) fun rcv => (hands_closeAndFail _).ite ?_
    refine Hands.after (appends_call fun _ => rfl) fun snd => (hands_closeAndFail _).ite ?_
    exact hands_pure _
  · rw [hret]
    rfl

/-- The request and the reply, with the exchanges that their readings start. -/
theorem appends_sntpExchange (hclock : Appends NetState.uses Balanced clock) (sock : ℤ) :
    Appends NetState.uses (BalancedWith sock) (sntpExchange E clock sock) := by
  have hcl : Closed (BalancedWith sock) := closed_balancedWith sock
  have hread : Appends NetState.uses (BalancedWith sock) clock :=
    hclock.mono fun t ht => ht.with sock
  have hrequest : ∀ server, Appends NetState.uses (BalancedWith sock)
      (sntpRequest E clock sock server) := by
    intro server
    refine hread.bind hcl fun transmit => ?_
    refine (appends_of_keeps hcl keeps_recordT1).bind hcl fun _ => ?_
    refine (appends_call fun _ => rfl).bind hcl fun sent => ?_
    exact (appends_pure hcl _).ite (appends_pure hcl _)
  have hreply : Appends NetState.uses (BalancedWith sock) (sntpReply E clock sock) := by
    refine (appends_call fun _ => rfl).bind hcl fun got => ?_
    refine Appends.ite (Appends.ite ?_ (appends_pure hcl _)) (appends_pure hcl _)
    refine (appends_get hcl).bind hcl fun before => hread.bind hcl fun t4 => ?_
    exact (appends_of_keeps hcl (keeps_recordT4 before)).bind hcl fun _ => appends_pure hcl _
  refine (appends_get hcl).bind hcl fun s => (hrequest _).bind hcl fun res => ?_
  exact hreply.ite (appends_pure hcl _)

/-- Every run of SNTP is balanced. -/
theorem appends_sntpGettime (hclock : Appends NetState.uses Balanced clock) :
    Appends NetState.uses Balanced (sntpGettime E clock) := by
  have hopen : ∀ sock : ℤ, 0 ≤ sock → (if 0 ≤ sock then do
      let out ← sntpExchange E clock sock
      let _ ← call E (.close sock)
      pure out
    else pure none) = (do
      let out ← sntpExchange E clock sock
      let _ ← call E (.close sock)
      pure out) := fun _ hsock => if_pos hsock
  exact appends_whileActive (opens_sntpSocket.closed (appends_sntpExchange hclock) hopen
    (keeps_pure none))

/-- Setting the clock is no use of a descriptor. -/
theorem keeps_setRealtime (now : Timespec) : Keeps NetState.uses (setRealtime E now) := by
  intro s
  unfold setRealtime
  rw [post_bind, post_get]
  dsimp only
  cases clockSettime (s.toMachine.elapse E).clocks .realtime (some now) with
  | error e => exact post_of_ok rfl rfl
  | ok clocks => exact post_of_ok rfl rfl

/-! ### The clock -/

/-- The clock is set after a balanced run. -/
theorem appends_timesyncTimespec (hclock : Appends NetState.uses Balanced clock)
    (now : Option Timespec) : Appends NetState.uses Balanced (timesyncTimespec E clock now) := by
  have hcl : Closed (Balanced (ρ := ℤ)) := closed_balanced
  refine (appends_get hcl).bind hcl fun s => Appends.ite ?_ (appends_pure hcl _)
  refine (appends_sntpGettime hclock).bind hcl fun out => ?_
  cases out with
  | none => exact appends_pure hcl _
  | some now =>
      refine (appends_of_keeps hcl (keeps_setRealtime now)).bind hcl fun _ => ?_
      exact (appends_pure hcl _).ite (appends_pure hcl _)

/-- A reading of the clock is balanced, however deep the readings in it are nested. -/
theorem appends_clockGettime (depth : ℕ) :
    Appends NetState.uses Balanced (clockGettime E depth) := by
  have hcl : Closed (Balanced (ρ := ℤ)) := closed_balanced
  induction depth with
  | zero => exact appends_throw _
  | succ depth ih =>
      have hread : Keeps NetState.uses (onMachine (Machine.reading E)) :=
        fun s => post_onMachine.2 rfl
      have hmutex : ∀ b, Keeps NetState.uses (setMutex b : Client η PUnit) :=
        fun b => keeps_modify fun _ => rfl
      refine (appends_of_keeps hcl hread).bind hcl fun tp => (appends_get hcl).bind hcl fun s => ?_
      refine (appends_pure hcl _).ite ?_
      refine (appends_of_keeps hcl (hmutex true)).bind hcl fun _ => ?_
      refine (appends_timesyncTimespec ih _).bind hcl fun synced => ?_
      exact (appends_of_keeps hcl (hmutex false)).bind hcl fun _ => appends_pure hcl _

end Sntp

/-! ## The other two clients of this layer -/

/-- The exchange of RFC 868 uses the socket that it is given. -/
theorem appends_rfc868Exchange (type : Rfc868Type) (sock : ℤ) (server : InAddr) :
    Appends NetState.uses (BalancedWith sock) (rfc868Exchange E type sock server) := by
  have hcl : Closed (BalancedWith sock) := closed_balancedWith sock
  have hconnect : Appends NetState.uses (BalancedWith sock) (rfc868Connect E type sock server) := by
    cases type with
    | tcp => exact (appends_call fun _ => rfl).bind hcl fun _ => appends_pure hcl _
    | udp =>
        exact (appends_call fun _ => rfl).bind hcl fun _ =>
          (appends_pure hcl _).ite (appends_pure hcl _)
  refine hconnect.bind hcl fun res => Appends.ite ?_ (appends_pure hcl _)
  exact (appends_call fun _ => rfl).bind hcl fun _ => (appends_pure hcl _).ite (appends_pure hcl _)

/-- Every run of RFC 868 is balanced. -/
theorem appends_rfc868Gettime (type : Rfc868Type) :
    Appends NetState.uses Balanced (rfc868Gettime E type) := by
  have hcl : Closed (Balanced (ρ := ℤ)) := closed_balanced
  have hopens : Opens (call E (.socket type.sockType) >>= fun a => pure a.ret) :=
    Opens.of_hands (fun a _ => hands_pure a.ret) fun a hret => congrArg pure hret
  have hgettime32 : ∀ server, Appends NetState.uses Balanced (rfc868Gettime32 E type server) := by
    intro server
    have hopen : ∀ sock : ℤ, 0 ≤ sock → (if 0 ≤ sock then do
        let secs ← rfc868Exchange E type sock server
        let _ ← call E (.close sock)
        pure secs
      else pure 0) = (do
        let secs ← rfc868Exchange E type sock server
        let _ ← call E (.close sock)
        pure secs) := fun _ hsock => if_pos hsock
    have hclosed := hopens.closed (appends_rfc868Exchange type · server) hopen (keeps_pure 0)
    rw [bind_assoc] at hclosed
    simp only [pure_bind] at hclosed
    exact hclosed
  refine (appends_get hcl).bind hcl fun s => (hgettime32 _).bind hcl fun secs => ?_
  exact (appends_pure hcl _).ite ((appends_pure hcl _).ite (appends_pure hcl _))

/-- The socket of DNS is opened and connected, or closed again. -/
theorem opens_createSocket (server : InAddr) : Opens (createSocket E server) := by
  refine Opens.of_hands (fun a hret => ?_) fun a hret => if_pos hret
  rw [if_neg (by omega)]
  refine Hands.after (appends_call fun _ => rfl) fun rcv => (hands_closeAndFail _).ite ?_
  refine Hands.after (appends_call fun _ => rfl) fun snd => (hands_closeAndFail _).ite ?_
  refine Hands.after (appends_call fun _ => rfl) fun conn => (hands_closeAndFail _).ite ?_
  exact hands_pure _

/-- The exchange of DNS uses the socket that it is given. -/
theorem appends_dnsExchange (fuel : ℕ) (sock : ℤ) (nodename : Option (List Byte)) :
    Appends NetState.uses (BalancedWith sock) (dnsExchange E fuel sock nodename) := by
  have hcl : Closed (BalancedWith sock) := closed_balancedWith sock
  have hrand : Keeps NetState.uses (randId E) := fun s => post_onMachine.2 rfl
  have hround : ∀ id u, Appends NetState.uses (BalancedWith sock) (recvDnsRound E fuel sock id u) := by
    intro id u
    refine (appends_call fun _ => rfl).bind hcl fun got => (appends_pure hcl _).ite ?_
    cases Dns.processResponse ⟨got.buf, Dns.dnsMsgLen⟩ fuel got.ret.toNat id with
    | error e => exact appends_throw _
    | ok r =>
        cases r with
        | none => exact appends_pure hcl _
        | some ret => exact appends_pure hcl _
  have hquery : Appends NetState.uses (BalancedWith sock) (sendDnsQuery E sock nodename) := by
    refine (appends_of_keeps hcl hrand).bind hcl fun id => ?_
    cases nodename with
    | none => exact appends_throw _
    | some name =>
        refine (appends_throw _).ite ((appends_call fun _ => rfl).bind hcl fun sent => ?_)
        exact (appends_pure hcl _).ite (appends_pure hcl _)
  refine hquery.bind hcl fun query => (appends_pure hcl _).ite ?_
  exact Appends.iter hcl (hround _) fuel ()

/-- Every run of `getaddrinfo` is balanced. -/
theorem appends_getaddrinfo (fuel : ℕ) (nodename servname : Option (List Byte))
    (hints : Option Hints) :
    Appends NetState.uses Balanced (getaddrinfo E fuel nodename servname hints) := by
  have hcl : Closed (Balanced (ρ := ℤ)) := closed_balanced
  refine (appends_pure hcl _).ite ?_
  cases hints.bind Hints.check with
  | some err => exact appends_pure hcl _
  | none =>
      refine (appends_get hcl).bind hcl fun s => ?_
      have hopen : ∀ sock : ℤ, 0 ≤ sock → (if sock = -1 then pure (Dns.eaiSystem, none) else do
          let ret ← dnsExchange E fuel sock nodename
          let _ ← call E (.close sock)
          pure ret) = (do
          let ret ← dnsExchange E fuel sock nodename
          let _ ← call E (.close sock)
          pure ret) := fun _ hsock => if_neg (by omega)
      exact (opens_createSocket _).closed (appends_dnsExchange fuel · nodename) hopen
        (keeps_pure _)

end Net

/-! ## `dhcp_step` -/

namespace Dhcp

open Resources

/-- What the call does with a descriptor. -/
def Action.use : Action → Option (Use ℤ)
  | .socket ret => if 0 ≤ ret then some (.acquire ret) else none
  | .setsockopt sock _ _ => some (.use sock)
  | .bind sock _ _ => some (.use sock)
  | .connect sock _ _ => some (.use sock)
  | .send sock _ _ _ => some (.use sock)
  | .recvfrom sock _ _ => some (.use sock)
  | .close sock => some (.release sock)

/-- What a list of calls does with descriptors. -/
def uses (calls : List Action) : List (Use ℤ) := calls.filterMap Action.use

/-- The uses of two lists of actions follow one another. -/
theorem uses_append (calls calls' : List Action) :
    uses (calls ++ calls') = uses calls ++ uses calls' := List.filterMap_append

/-- The calls open `sock`, use it and leave it open. -/
def Holding (sock : ℤ) (calls : List Action) : Prop :=
  ∃ t, BalancedWith sock t ∧ uses calls = .acquire sock :: t

/-- After `socket` the descriptor is held. -/
theorem holding_socket {sock : ℤ} (h : 0 ≤ sock) : Holding sock [.socket sock] := by
  refine ⟨[], fun _ _ => rfl, ?_⟩
  show List.filterMap Action.use [.socket sock] = _
  rw [List.filterMap_cons, show (Action.socket sock).use = some (.acquire sock) from if_pos h]
  rfl

/-- It is held as long as it is only used. -/
theorem Holding.append {sock : ℤ} {calls calls' : List Action} (h : Holding sock calls)
    (h' : BalancedWith sock (uses calls')) : Holding sock (calls ++ calls') := by
  obtain ⟨t, ht, heq⟩ := h
  exact ⟨t ++ uses calls', ht.append h', by rw [uses_append, heq, List.cons_append]⟩

/-- One more call on the open socket. -/
theorem Holding.snoc {sock : ℤ} {calls : List Action} (h : Holding sock calls) (e : Action)
    (he : e.use = some (.use sock)) : Holding sock (calls ++ [e]) := by
  refine h.append ?_
  show BalancedWith sock (List.filterMap Action.use [e])
  rw [List.filterMap_cons, he]
  exact balancedWith_use sock

/-- With `close` the list is balanced. -/
theorem Holding.close {sock : ℤ} {calls : List Action} (h : Holding sock calls) :
    Balanced (uses (calls ++ [.close sock])) := by
  obtain ⟨t, ht, heq⟩ := h
  rw [uses_append, heq]
  exact ht.bracket

/-- Using a descriptor does not give it back. -/
theorem balancedWith_of_forall {sock : ℤ} {calls : List Action}
    (h : ∀ e ∈ calls, e.use = some (.use sock)) : BalancedWith sock (uses calls) := by
  induction calls with
  | nil => exact fun _ _ => rfl
  | cons e calls ih =>
      show BalancedWith sock (List.filterMap Action.use (e :: calls))
      rw [List.filterMap_cons, h e List.mem_cons_self]
      exact (balancedWith_use sock).append (ih fun e' he' => h e' (List.mem_cons_of_mem _ he'))

/-! ### The socket of a transaction -/

/-- What `bootp_socket_create` leaves: an open socket, or an error and nothing. -/
structure Created (r : List Action × ℤ) : Prop where
  opened : 0 ≤ r.2 → Holding r.2 r.1
  failed : r.2 < 0 → Balanced (uses r.1)

/-- The descriptor is closed when the socket is not usable. -/
theorem created_closeAndFail {sock : ℤ} {calls : List Action} (h : Holding sock calls) :
    Created (closeAndFail calls sock) where
  opened := fun h' => absurd h' (show ¬ 0 ≤ dhcpEsyscall by decide)
  failed := fun _ => h.close

/-- Otherwise it is held. -/
theorem created_open {sock : ℤ} {calls : List Action} (hsock : 0 ≤ sock)
    (h : Holding sock calls) : Created (calls, sock) where
  opened := fun _ => h
  failed := fun h' => absurd hsock (not_le.2 h')

/-- **Every way out of `bootp_socket_create`** has an open socket or has closed it. -/
theorem created_bootpSocketCreate (i : SocketInput) (b : Binding) (hlow : -1 ≤ i.socket) :
    Created (bootpSocketCreate i b) := by
  unfold bootpSocketCreate
  by_cases hfail : i.socket = -1
  · rw [if_pos hfail]
    refine ⟨fun h' => absurd h' (show ¬ 0 ≤ dhcpEsyscall by decide), fun _ => ?_⟩
    show Balanced (List.filterMap Action.use [.socket i.socket])
    rw [hfail]
    exact balanced_nil
  · have hsock : 0 ≤ i.socket := by omega
    have h1 : Holding i.socket ((bindCalls i b).take 1) := holding_socket hsock
    have h2 : Holding i.socket ((bindCalls i b).take 2) := h1.snoc _ rfl
    have h3 : Holding i.socket ((bindCalls i b).take 3) := h2.snoc _ rfl
    have h4 : Holding i.socket (bindCalls i b) := h3.snoc _ rfl
    rw [if_neg hfail]
    dsimp only
    split_ifs
    · exact created_closeAndFail h2
    · exact created_closeAndFail h3
    · exact created_closeAndFail h4
    · exact created_closeAndFail (h4.snoc _ rfl)
    · exact created_open hsock (h4.snoc _ rfl)
    · exact created_closeAndFail (h4.snoc _ rfl)
    · exact created_closeAndFail ((h4.snoc _ rfl).snoc _ rfl)
    · exact created_open hsock ((h4.snoc _ rfl).snoc _ rfl)

/-- A round of the loop only uses the socket. -/
theorem use_of_mem_bootpAttempt {sock : ℤ} {a : Attempt} {b : Binding} {e : Action}
    (h : e ∈ (bootpAttempt sock a b).1) : e.use = some (.use sock) := by
  have hsent : ∀ e ∈ (sendBootpRequest sock a b).1, e.use = some (.use sock) := by
    intro e he
    unfold sendBootpRequest at he
    dsimp only at he
    split_ifs at he <;> rw [List.mem_singleton.1 he] <;> rfl
  have hgot : ∀ e ∈ (recvBootpReply sock a.recvs (sendBootpRequest sock a b).2.2).1,
      e.use = some (.use sock) := by
    intro e he
    obtain ⟨r, rfl⟩ := recvBootpReply_fst he
    rfl
  have hboth : ∀ e ∈ (sendBootpRequest sock a b).1 ++
      (recvBootpReply sock a.recvs (sendBootpRequest sock a b).2.2).1,
      e.use = some (.use sock) := by
    intro e he
    rcases List.mem_append.1 he with he | he
    · exact hsent e he
    · exact hgot e he
  unfold bootpAttempt at h
  dsimp only at h
  -- a request that was not sent is not waited for
  split_ifs at h with hret
  · exact hsent e h
  · cases hreply : (recvBootpReply sock a.recvs (sendBootpRequest sock a b).2.2).2 with
    | none =>
        rw [hreply] at h
        exact hboth e h
    | some r =>
        rw [hreply] at h
        dsimp only at h
        split_ifs at h
        · exact hboth e h
        · exact hboth e h

/-! ### Transactions and steps -/

/-- The attempts of a transaction use the socket that they are given. -/
theorem balancedWith_bootpAttempts (sock : ℤ) (as : List Attempt) (ret : ℤ) (b : Binding) :
    BalancedWith sock (uses (bootpAttempts sock as ret b).1) := by
  induction as generalizing ret b with
  | nil => exact fun _ _ => rfl
  | cons a as ih =>
      have hround : BalancedWith sock (uses (bootpAttempt sock a b).1) :=
        balancedWith_of_forall fun e he => use_of_mem_bootpAttempt he
      unfold bootpAttempts
      cases hr : bootpAttempt sock a b with
      | mk calls out =>
          rw [hr] at hround
          cases out with
          | waiting => exact hround
          | retry ret₁ b₁ =>
              show BalancedWith sock (uses (calls ++ _))
              rw [uses_append]
              exact hround.append (ih ret₁ b₁)
          | done b₁ => exact hround

/-- Every transaction is balanced. -/
theorem balanced_bootpTransaction (i : StepInput) (b : Binding) (hlow : -1 ≤ i.sockets.socket)
    {res : ℤ × Binding} (hres : (bootpTransaction i b).2 = some res) :
    Balanced (uses (bootpTransaction i b).1) := by
  have hcreated := created_bootpSocketCreate i.sockets b hlow
  unfold bootpTransaction at hres ⊢
  dsimp only at hres ⊢
  split_ifs at hres ⊢ with hneg
  · exact hcreated.failed hneg
  · have hattempts := balancedWith_bootpAttempts (bootpSocketCreate i.sockets b).2
      (List.ofFn i.attempts) 0 b
    cases hr : (bootpAttempts (bootpSocketCreate i.sockets b).2 (List.ofFn i.attempts) 0 b).2 with
    | none =>
        rw [hr] at hres
        cases hres
    | some res' => exact ((hcreated.opened (by omega)).append hattempts).close

/-- Every step of the DHCP client is balanced. -/
theorem balanced_dhcpStep (i : StepInput) (b : Binding) (hlow : -1 ≤ i.sockets.socket)
    {res : ℤ × Binding} (hres : (dhcpStep i b).2 = some res) : Balanced (uses (dhcpStep i b).1) := by
  unfold dhcpStep at hres ⊢
  dsimp only at hres ⊢
  split_ifs at hres ⊢ with hnext
  · cases hr : (bootpTransaction i b).2 with
    | none =>
        rw [hr] at hres
        cases hres
    | some res' =>
        have h := balanced_bootpTransaction i b hlow hr
        obtain ⟨ret, b'⟩ := res'
        dsimp only
        split_ifs
        · exact h
        · exact h
  · exact balanced_nil

end Dhcp

/-! ## All clients -/

namespace Net

open Comp W5100 Resources

variable {η : Type} (E : Environment η)

/-- What a reading of the clock does with descriptors, wherever it is made. -/
def ReadingTrace (t : List (Use ℤ)) : Prop :=
  ∃ depth s tp s', clockGettime E depth s = .ok (tp, s') ∧ s'.uses = s.uses ++ t

/-- What one call of a network client does with descriptors until it returns. -/
inductive ClientTrace (E : Environment η) : List (Use ℤ) → Prop
  | sntpGettime {depth s out s' t}
      (hret : sntpGettime E (clockGettime E depth) s = .ok (out, s'))
      (ht : s'.uses = s.uses ++ t) : ClientTrace E t
  | rfc868Gettime {type s out s' t} (hret : rfc868Gettime E type s = .ok (out, s'))
      (ht : s'.uses = s.uses ++ t) : ClientTrace E t
  | getaddrinfo {fuel nodename servname hints s ret s' t}
      (hret : getaddrinfo E fuel nodename servname hints s = .ok (ret, s'))
      (ht : s'.uses = s.uses ++ t) : ClientTrace E t
  /-- The clock readings of `dhcp_step` do what readings do, at any point of it. -/
  | dhcpStep {i b res t} (hsocket : -1 ≤ i.sockets.socket)
      (hret : (Dhcp.dhcpStep i b).2 = some res)
      (ht : Woven (ReadingTrace E) (Dhcp.uses (Dhcp.dhcpStep i b).1) t) : ClientTrace E t

/-- What is appended to a log is determined by it. -/
theorem Appends.trace {α κ : Type} {log : NetState η → List κ} {T : List κ → Prop}
    {x : Client η α} (hx : Appends log T x) {s s' : NetState η} {a : α} {t : List κ}
    (hret : x s = .ok (a, s')) (ht : log s' = log s ++ t) : T t := by
  obtain ⟨t', heq, ht'⟩ := hx s a s' hret
  rw [ht] at heq
  rw [List.append_cancel_left heq]
  exact ht'

/-- **No client leaks a descriptor.**  Whatever every socket call returns, by the time a
client returns it has closed each descriptor that `socket` gave it exactly once, has used
none after closing it, and has closed none that it had not opened. -/
theorem balanced_of_clientTrace {E : Environment η} {t : List (Use ℤ)} (h : ClientTrace E t) :
    Balanced t ∧ ∀ sock, t.count (.acquire sock) = t.count (.release sock) := by
  have hbalanced : Balanced t := by
    cases h with
    | sntpGettime hret ht =>
        exact Appends.trace (appends_sntpGettime (appends_clockGettime _)) hret ht
    | rfc868Gettime hret ht => exact Appends.trace (appends_rfc868Gettime _) hret ht
    | getaddrinfo hret ht => exact Appends.trace (appends_getaddrinfo _ _ _ _) hret ht
    | dhcpStep hsocket hret ht =>
        refine (Dhcp.balanced_dhcpStep _ _ hsocket hret).woven ?_ ht
        rintro t ⟨depth, s, tp, s', hread, heq⟩
        exact Appends.trace (appends_clockGettime depth) hread heq
  exact ⟨hbalanced, hbalanced.count_eq⟩

/-- A call of `rfc868_gettime` whose reply does not come. -/
theorem balanced_unanswered :
    Balanced [.acquire 3, .use 3, .use 3, .release (3 : ℤ)] ∧ ∀ sock,
      [Use.acquire 3, .use 3, .use 3, .release (3 : ℤ)].count (.acquire sock) =
        [Use.acquire 3, .use 3, .use 3, .release (3 : ℤ)].count (.release sock) :=
  balanced_of_clientTrace (@ClientTrace.rfc868Gettime _ scripted .udp
    (NetState.boot [returns 3, returns 1, returns (-1), returns 0]) none _ _ rfl rfl)

end Net

end Nucleo
