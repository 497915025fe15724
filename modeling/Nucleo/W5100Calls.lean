/-
# What a call does to the tables

The socket calls, `fcntl`, `poll` and the events of the chip between them, in any order.
Whatever the chip answers, a call does little to the two tables: `Effect` lists it, with
what held before.  Most calls only turn slots, that is they change the state or the
addresses of a slot and leave its descriptors alone (`Turn`).

The calls that turn slots are dealt with here; those that give out descriptors or take
them back, and all calls together, in the module on effects.
-/
import Nucleo.W5100Rights

namespace Nucleo

/-- What `file_alloc` and `fill_fd_struct` make of an entry. -/
def Fd.socket (d : Fin openMax) (i : Fin W5100.nSockets) : Fd :=
  { Fd.zero with
    fd := (d.val : ℤ), isallocated := true, isopen := true,
    write := some .w5100, read := some .w5100, close := some .w5100, poll := some .w5100,
    stat := ⟨.sock, 0o777, 0, 1024⟩, statusFlags := oRdwr, opaquePtr := .slot i }

/-- An entry that `w5100_sock_close` has released. -/
def Fd.closed (f : Fd) : Fd := { f with isopen := false, isallocated := false }

namespace W5100

open Comp

/-! ## Calls -/

/-- A call on the sockets, or an event of the chip.  `getsockopt`, `getsockname` and
`getpeername`, which only read a slot, are left out. -/
inductive NetCall (χ : Type)
  | socket (domain : Family) (type : SockType) (protocol : ℤ)
  | bind (fd : ℤ) (addr : SockaddrIn)
  | connect (fd : ℤ) (addr : SockaddrIn)
  | listen (fd : ℤ)
  | accept (fd : ℤ) (wantAddr : Bool)
  | send (fd : ℤ) (buf : List Byte)
  | sendto (fd : ℤ) (buf : List Byte) (destAddress : Option SockaddrIn)
  | recv (fd : ℤ) (len : ℕ)
  | recvfrom (fd : ℤ) (len : ℕ) (wantAddr : Bool)
  | setsockopt (fd : ℤ) (solSocket : Bool) (option : SocketOption)
  | fcntl (fd : ℤ) (cmd : FcntlCmd)
  | poll (fd : ℤ) (events : BitVec 16)
  | close (fd : ℤ)
  /-- Peers and the network put the chip into another state. -/
  | event (chip : χ)

section Exec

variable {χ κ δ ψ : Type} (B : Board χ) (L : Fat.FatLib κ δ ψ)

/-- The call with the given patience: the value it returns. -/
def NetCall.exec : ℕ × NetCall χ → Fat.FatSys χ κ δ ψ ℤ
  | (_, .socket domain type protocol) => W5100.socket B domain type protocol
  | (fuel, .bind fd addr) => W5100.bind B fuel fd addr
  | (fuel, .connect fd addr) => W5100.connect B fuel fd addr
  | (fuel, .listen fd) => W5100.listen B fuel fd
  | (fuel, .accept fd wantAddr) => do pure (← W5100.accept B fuel fd wantAddr).1
  | (fuel, .send fd buf) => W5100.send B fuel fd buf
  | (fuel, .sendto fd buf destAddress) => W5100.sendto B fuel fd buf destAddress
  | (fuel, .recv fd len) => do pure (← W5100.recv B fuel fd len).ret
  | (fuel, .recvfrom fd len wantAddr) => do pure (← W5100.recvfrom B fuel fd len wantAddr).ret
  | (_, .setsockopt fd solSocket option) => W5100.setsockopt fd solSocket option
  | (_, .fcntl fd cmd) => Nucleo.fcntl fd cmd
  | (_, .poll fd events) => do pure (← pollOne B fd events).toInt
  | (fuel, .close fd) => sysClose B L fuel fd
  | (_, .event chip) => do
      modify fun w => w.setChip chip
      pure 0

end Exec

/-! ## Effects -/

/-- The two tables. -/
structure Tables where
  files : Fin openMax → Fd
  sockets : Fin nSockets → Slot

namespace Tables

/-- The tables with one file structure replaced. -/
def setFile (T : Tables) (d : Fin openMax) (f : Fd) : Tables :=
  { T with files := Function.update T.files d f }

/-- The tables with one socket replaced. -/
def setSlot (T : Tables) (i : Fin nSockets) (s : Slot) : Tables :=
  { T with sockets := Function.update T.sockets i s }

variable (T : Tables) (d d' : Fin openMax) (f : Fd) (i j : Fin nSockets) (s : Slot)

@[simp] theorem setFile_sockets : (T.setFile d f).sockets = T.sockets := rfl
@[simp] theorem setSlot_files : (T.setSlot i s).files = T.files := rfl
@[simp] theorem setFile_files_self : (T.setFile d f).files d = f := Function.update_self ..
@[simp] theorem setSlot_sockets_self : (T.setSlot i s).sockets i = s := Function.update_self ..

variable {d d' i j}

/-- The other file structures are as they were. -/
theorem setFile_files_of_ne (h : d' ≠ d) : (T.setFile d f).files d' = T.files d' :=
  Function.update_of_ne h ..

/-- The other sockets are as they were. -/
theorem setSlot_sockets_of_ne (h : j ≠ i) : (T.setSlot i s).sockets j = T.sockets j :=
  Function.update_of_ne h ..

/-- Of two replacements of a socket the second counts. -/
theorem setSlot_setSlot (s' : Slot) : (T.setSlot i s).setSlot i s' = T.setSlot i s' := by
  unfold setSlot
  rw [Function.update_idem]

/-- Of two replacements of a file structure the second counts. -/
theorem setFile_setFile (f' : Fd) : (T.setFile d f).setFile d f' = T.setFile d f' := by
  unfold setFile
  rw [Function.update_idem]

/-- A file structure and a socket may be replaced in either order. -/
theorem setFile_setSlot : (T.setSlot i s).setFile d f = (T.setFile d f).setSlot i s := rfl

end Tables

/-! ### What a call may do to a slot -/

/-- A state that a slot can go to while it keeps its descriptors. -/
inductive Slot.Next (s : Slot) : SocketState → Prop
  | bound : s.state = .created → s.Next .bound
  | connected : s.state = .created → s.type = .stream → s.Next .connected
  | listening : s.state = .bound → s.type = .stream → s.Next .listening
  | relistening : s.state = .accepted → s.fdData ≠ none → s.Next .listening
  | disconnected : s.state = .accepted ∨ s.state = .connected →
      ¬ (s.state = .accepted ∧ s.fdData ≠ none) → s.Next .disconnected

/-- The slot points to the descriptor. -/
def Slot.Points (s : Slot) (d : Fin openMax) : Prop :=
  s.fdData = some d ∨ s.connectionData = some d

/-- A slot whose state or addresses change. -/
structure Slot.Turns (s s' : Slot) : Prop where
  fd : s'.fd = s.fd
  isocket : s'.isocket = s.isocket
  type : s'.type = s.type
  fdData : s'.fdData = s.fdData
  connectionData : s'.connectionData = s.connectionData
  state : s'.state = s.state ∨ s.Next s'.state

/-- One slot turns, or the flags of a descriptor change. -/
inductive Turn (T : Tables) : Tables → Prop
  | slot (i : Fin nSockets) (s : Slot) : (T.sockets i).Turns s → Turn T (T.setSlot i s)
  | flags (d : Fin openMax) (descriptorFlags statusFlags : BitVec 32) :
      Turn T (T.setFile d { T.files d with
        descriptorFlags := descriptorFlags, statusFlags := statusFlags })

/-- A slot after `socket_free`. -/
def Slot.released (s : Slot) : Slot :=
  { s with fd := socketFreeFd, fdData := none, connectionData := none, state := .none }

/-- What a call does to the tables. -/
inductive Effect {χ : Type} (T : Tables) : NetCall χ → Tables → Prop
  | turned {call : NetCall χ} {T' : Tables} : Relation.ReflTransGen Turn T T' → Effect T call T'
  /-- `socket` finds no free descriptor. -/
  | refused {domain : Family} {type : SockType} {protocol : ℤ} (i : Fin nSockets) :
      (T.sockets i).fd = socketFreeFd →
      Effect T (.socket domain type protocol) (T.setSlot i (T.sockets i).released)
  | created {domain : Family} {type : SockType} {protocol : ℤ} (i : Fin nSockets)
      (d : Fin openMax) :
      (T.sockets i).fd = socketFreeFd → (T.files d).isallocated = false →
      Effect T (.socket domain type protocol)
        ((T.setFile d (Fd.socket d i)).setSlot i ((T.sockets i).created i type d))
  | accepted {wantAddr : Bool} (l : Fin openMax) (i : Fin nSockets) (d : Fin openMax) :
      (T.files l).opaquePtr = .slot i → (T.sockets i).state = .listening →
      (T.sockets i).type = .stream → (T.files d).isallocated = false →
      Effect T (.accept (l.val : ℤ) wantAddr) ((T.setFile d (Fd.socket d i)).setSlot i
        { T.sockets i with state := .accepted, connectionData := some d })
  /-- A descriptor of the console. -/
  | console (d : Fin openMax) :
      (T.files d).close ≠ some .w5100 →
      Effect T (.close (d.val : ℤ)) (T.setFile d { T.files d with isopen := false })
  /-- The only descriptor of a slot. -/
  | closed (d : Fin openMax) (i : Fin nSockets) :
      (T.sockets i).fdData = some d ∧ (T.sockets i).state ≠ .accepted ∨
        (T.sockets i).connectionData = some d ∧ (T.sockets i).fdData = none →
      Effect T (.close (d.val : ℤ))
        ((T.setFile d (T.files d).closed).setSlot i (T.sockets i).released)
  /-- The listening descriptor of an accepted connection. -/
  | closedListener (d : Fin openMax) (i : Fin nSockets) :
      (T.sockets i).fdData = some d → (T.sockets i).state = .accepted →
      Effect T (.close (d.val : ℤ)) ((T.setFile d (T.files d).closed).setSlot i
        { T.sockets i with fdData := none })
  /-- A connection whose slot goes on listening. -/
  | closedConnection (d : Fin openMax) (i : Fin nSockets) :
      (T.sockets i).connectionData = some d → (T.sockets i).fdData ≠ none →
      Effect T (.close (d.val : ℤ)) ((T.setFile d (T.files d).closed).setSlot i
        { T.sockets i with connectionData := none, state := .listening })

end W5100

namespace World

/-- The tables of a world. -/
def tables {χ φ : Type} (w : World χ φ) : W5100.Tables := ⟨w.files, w.sockets⟩

/-- Replacing a file structure replaces it in the tables. -/
@[simp] theorem setFile_tables {χ φ : Type} (w : World χ φ) (d : Fin openMax) (f : Fd) :
    (w.setFile d f).tables = w.tables.setFile d f := rfl

/-- Replacing a socket replaces it in the tables. -/
@[simp] theorem setSlot_tables {χ φ : Type} (w : World χ φ) (i : Fin W5100.nSockets)
    (s : W5100.Slot) : (w.setSlot i s).tables = w.tables.setSlot i s := rfl

/-- The chip is no part of the tables. -/
@[simp] theorem setChip_tables {χ φ : Type} (w : World χ φ) (c : χ) :
    (w.setChip c).tables = w.tables := rfl

@[simp] theorem setErrno_tables {χ φ : Type} (w : World χ φ) (e : Errno) :
    (w.setErrno e).tables = w.tables := rfl

/-- Worlds that differ in the chip and `errno` have the same tables. -/
theorem Same.tables {χ φ : Type} {w w' : World χ φ} (h : w.Same w') : w'.tables = w.tables := by
  unfold World.tables
  rw [h.files, h.sockets]

end World

namespace W5100

open Comp

section Turned

variable {χ φ : Type} {w w' w'' : World χ φ} {i : Fin nSockets}

/-! ### In the world -/

/-- The calls that give out and take back no descriptor. -/
abbrev Turned (w w' : World χ φ) : Prop := Relation.ReflTransGen Turn w.tables w'.tables

/-- Nothing has turned. -/
theorem turned_of_same (h : w.Same w') : Turned w w' := by
  unfold Turned
  rw [h.tables]

/-- What turns after nothing has changed turns. -/
theorem Turned.of_same (hs : w.Same w') (h : Turned w' w'') : Turned w w'' :=
  (turned_of_same hs).trans h

/-- A socket turns as its state allows. -/
theorem turned_slot {s : Slot} (h : (w.sockets i).Turns s) : Turned w (w.setSlot i s) :=
  .single (.slot i s h)

/-- A slot turns after the chip has been used. -/
theorem turned_setSlot {s : Slot} (hs : w'.tables = w.tables) (h : (w'.sockets i).Turns s) :
    Turned w (w'.setSlot i s) := by
  unfold Turned
  rw [World.setSlot_tables, hs]
  have h' : (w.sockets i).Turns s := by
    rw [← show w'.sockets = w.sockets from congrArg Tables.sockets hs]
    exact h
  exact .single (.slot i s h')

/-- A turn leaves the descriptor of a socket. -/
theorem Turned.fdData (h : Turned w w') (i : Fin nSockets) :
    (w'.sockets i).fdData = (w.sockets i).fdData := by
  have hstep : ∀ T T' : Tables, Turn T T' → (T'.sockets i).fdData = (T.sockets i).fdData := by
    intro T T' ht
    cases ht with
    | slot j s hs =>
        by_cases hij : i = j
        · subst hij
          rw [Tables.setSlot_sockets_self]
          exact hs.fdData
        · rw [Tables.setSlot_sockets_of_ne _ _ hij]
    | flags d df sf => rfl
  have hrun : ∀ T T' : Tables, Relation.ReflTransGen Turn T T' →
      (T'.sockets i).fdData = (T.sockets i).fdData := by
    intro T T' ht
    induction ht with
    | refl => rfl
    | tail _ hlast ih => exact (hstep _ _ hlast).trans ih
  exact hrun _ _ h

variable (B : Board χ) (fuel : ℕ)

/-! ## `bind`, `connect` and `listen` -/

/-- A new datagram socket is bound. -/
theorem turned_bindUdp (hst : (w.sockets i).state = .created) (port : InPort) :
    Post (bindUdp B fuel i port) (fun _ w' => Turned w w') w := by
  unfold bindUdp
  rw [post_bind, post_getSlot]
  apply post_onChip_bind
  intro _ c1
  apply post_onChip_bind
  intro _ c2
  apply post_onChip_bind
  intro _ c3
  rw [post_modifySlot]
  exact turned_setSlot rfl ⟨rfl, rfl, rfl, rfl, rfl, .inr (.bound hst)⟩

/-- It is bound when it is not yet. -/
theorem turned_checkBindUdp : Post (checkBindUdp B fuel i) (fun _ w' => Turned w w') w := by
  unfold checkBindUdp
  rw [post_bind, post_getSlot, post_ite]
  constructor
  · intro hst
    rw [post_bind]
    refine (same_getAvailPort B fuel).mono ?_
    intro port w1 hs
    refine (turned_bindUdp B fuel ?_ port).mono fun _ _ h => h.of_same hs
    rw [hs.sockets]
    exact hst
  · intro _
    exact post_pure.2 .refl

/-! ### `connect` -/

/-- A stream socket is connected, or as it was. -/
theorem turned_connectTcp (htype : (w.sockets i).type = .stream) (addr : SockaddrIn) :
    Post (connectTcp B fuel i addr) (fun _ w' => Turned w w') w := by
  unfold connectTcp
  rw [post_bind, post_getSlot]
  simp only [post_ite]
  refine ⟨fun _ => post_fail.2 .refl, fun _ => ⟨fun _ => post_fail.2 .refl, fun _ =>
    ⟨fun _ => post_fail.2 .refl, fun hst => ?_⟩⟩⟩
  apply post_onChip_bind
  intro _ c1
  apply post_onChip_bind
  intro _ c2
  apply post_onChip_bind
  intro _ c3
  apply post_onChip_bind
  intro _ c4
  apply post_onChip_bind
  intro _ c5
  apply post_onChip_bind
  intro _ c6
  apply post_onChip_bind
  intro sr c7
  simp only [World.setChip_setChip]
  rw [post_ite]
  constructor
  · intro _
    rw [post_bind, post_modifySlot, post_pure]
    exact turned_setSlot rfl ⟨rfl, rfl, rfl, rfl, rfl, .inr (.connected (not_not.1 hst) htype)⟩
  · intro _
    exact post_fail.2 .refl

/-- A datagram socket is bound and gets a peer. -/
theorem turned_connectUdp (addr : SockaddrIn) :
    Post (connectUdp B fuel i addr) (fun _ w' => Turned w w') w := by
  have hdest : ∀ a, Turned w (w.setSlot i { w.sockets i with destAddress := a }) :=
    fun a => turned_slot ⟨rfl, rfl, rfl, rfl, rfl, .inl rfl⟩
  unfold connectUdp
  cases addr.sinFamily with
  | unspec =>
      dsimp only
      rw [post_bind, post_modifySlot, post_bind]
      exact (turned_checkBindUdp B fuel).mono fun _ _ h => post_pure.2 ((hdest _).trans h)
  | inet =>
      dsimp only
      rw [post_bind, post_modifySlot, post_bind]
      exact (turned_checkBindUdp B fuel).mono fun _ _ h => post_pure.2 ((hdest _).trans h)
  | other => exact post_fail.2 .refl

/-- A call looks its socket up first, and fails where there is none. -/
theorem turned_onSocket {α : Type} {fd : ℤ} {call : Option (Fin nSockets) → Sys χ φ α} {a : α}
    (hnone : call none = pure a)
    (hsome : ∀ i, Post (call (some i)) (fun _ w' => Turned w w') w) :
    Post (getSocketFromFd fd >>= call) (fun _ w' => Turned w w') w := by
  rw [post_bind]
  apply post_getSocketFromFd
  · intro e
    rw [hnone]
    exact post_pure.2 .refl
  · intro d i _ _ _
    exact hsome i

/-- `connect` turns one socket. -/
theorem turned_connect (fd : ℤ) (addr : SockaddrIn) :
    Post (connect B fuel fd addr) (fun _ w' => Turned w w') w := by
  unfold connect
  refine turned_onSocket rfl fun i => ?_
  dsimp only
  rw [post_bind, post_getSlot]
  cases htype : (w.sockets i).type with
  | stream => exact turned_connectTcp B fuel htype addr
  | dgram => exact turned_connectUdp B fuel addr
  | raw => exact post_fail.2 .refl
  | other => exact post_fail.2 .refl

/-! ### `bind` and `listen` -/

/-- A new stream socket is bound. -/
theorem turned_bindTcp (hst : (w.sockets i).state = .created) (addr : SockaddrIn) :
    Post (bindTcp B fuel i addr) (fun _ w' => Turned w w') w := by
  unfold bindTcp
  rw [post_bind, post_getSlot]
  apply post_onChip_bind
  intro _ c1
  apply post_onChip_bind
  intro _ c2
  apply post_onChip_bind
  intro _ c3
  rw [post_modifySlot]
  exact turned_setSlot rfl ⟨rfl, rfl, rfl, rfl, rfl, .inr (.bound hst)⟩

/-- `bind` turns one socket. -/
theorem turned_bind (fd : ℤ) (addr : SockaddrIn) :
    Post (W5100.bind B fuel fd addr) (fun _ w' => Turned w w') w := by
  unfold W5100.bind
  refine turned_onSocket rfl fun i => ?_
  dsimp only
  rw [post_bind, post_getSlot]
  simp only [post_ite]
  refine ⟨fun _ => post_fail.2 .refl, fun _ => ⟨fun _ => post_fail.2 .refl, fun hst => ?_⟩⟩
  cases (w.sockets i).type with
  | stream =>
      dsimp only
      rw [post_bind]
      exact (turned_bindTcp B fuel (not_not.1 hst) addr).mono fun _ _ h => post_pure.2 h
  | dgram =>
      dsimp only
      rw [post_bind]
      exact (turned_bindUdp B fuel (not_not.1 hst) _).mono fun _ _ h => post_pure.2 h
  | raw => exact post_fail.2 .refl
  | other => exact post_fail.2 .refl

/-- `listen` turns one socket. -/
theorem turned_listen (fd : ℤ) : Post (listen B fuel fd) (fun _ w' => Turned w w') w := by
  unfold listen
  refine turned_onSocket rfl fun i => ?_
  dsimp only
  rw [post_bind, post_getSlot]
  simp only [post_ite]
  refine ⟨fun _ => post_fail.2 .refl, fun hst => ⟨fun _ => post_fail.2 .refl, fun htype => ?_⟩⟩
  apply post_onChip_bind
  intro _ c1
  apply post_onChip_bind
  intro _ c2
  rw [post_bind, post_modifySlot, post_pure]
  exact turned_setSlot rfl
    ⟨rfl, rfl, rfl, rfl, rfl, .inr (.listening (not_not.1 hst) (not_not.1 htype))⟩

/-! ## Broken connections, `recvfrom`, `send` and `sendto` -/

/-- What `relisten` leaves: a socket in the listening state, and the chip. -/
theorem post_relisten {k : Fin nSockets} {Q : Unit → World χ φ → Prop}
    (h : ∀ c, Q () ((w.setChip c).setSlot i { w.sockets i with state := .listening })) :
    Post (relisten B fuel i k) Q w := by
  unfold relisten
  apply post_onChip_bind
  intro _ c1
  apply post_onChip_bind
  intro _ c2
  apply post_onChip_bind
  intro _ c3
  rw [post_modifySlot]
  exact h c3

/-- `manage_disconnect` of a connected slot. -/
theorem turned_manageDisconnect
    (hst : (w.sockets i).state = .accepted ∨ (w.sockets i).state = .connected) :
    Post (manageDisconnect B fuel i)
      (fun gone w' => Turned w w' ∧ (gone = false → w.Same w')) w := by
  refine Post.and ?_ (same_manageDisconnect B fuel i)
  unfold manageDisconnect
  rw [post_bind, post_getSlot]
  apply post_onChip_bind
  intro sr c1
  rw [post_ite]
  constructor
  · intro _
    rw [post_bind, post_setErrno]
    apply post_onChip_bind
    intro _ c2
    apply post_onChip_bind
    intro _ c3
    rw [post_bind, post_getSlot, post_ite]
    constructor
    · intro hacc
      rw [post_bind]
      apply post_relisten
      intro c4
      refine post_pure.2 (turned_slot (w := w) ?_)
      exact ⟨rfl, rfl, rfl, rfl, rfl, .inr (.relistening hacc.1 hacc.2)⟩
    · intro hacc
      rw [post_bind, post_modifySlot, post_pure]
      refine turned_slot (w := w) ?_
      exact ⟨rfl, rfl, rfl, rfl, rfl, .inr (.disconnected hst hacc)⟩
  · intro _
    exact post_pure.2 .refl

/-! ### Receiving -/

/-- A look for data takes a connection down, or leaves everything when it finds nothing. -/
theorem turned_recvRound (len : ℕ) (wantAddr : Bool)
    (hst : (w.sockets i).type = .stream →
      (w.sockets i).state = .accepted ∨ (w.sockets i).state = .connected) :
    Post (recvRound B fuel i len wantAddr)
      (fun r w' => Turned w w' ∧ (r = none → w.Same w')) w := by
  unfold recvRound
  rw [post_bind, post_getSlot]
  cases htype : (w.sockets i).type with
  | stream =>
      dsimp only
      apply post_onChip_bind
      intro bytes c2
      rw [post_ite]
      constructor
      · intro _
        exact post_pure.2 ⟨.refl, fun hc => absurd hc (Option.some_ne_none _)⟩
      · intro _
        rw [post_bind]
        refine (turned_manageDisconnect B fuel (w := w.setChip c2) (hst htype)).mono ?_
        rintro gone w3 ⟨h3, hs3⟩
        cases gone with
        | true => exact post_pure.2 ⟨h3, fun hc => absurd hc (Option.some_ne_none _)⟩
        | false => exact post_pure.2 ⟨h3, fun _ => (World.same_setChip c2).trans (hs3 rfl)⟩
  | dgram =>
      dsimp only
      apply post_onChip_bind
      intro toread c2
      rw [post_ite]
      constructor
      · intro _
        apply post_onChip_bind
        intro r c3
        exact post_pure.2 ⟨.refl, fun hc => absurd hc (Option.some_ne_none _)⟩
      · intro _
        exact post_pure.2 ⟨.refl, fun _ => ⟨rfl, rfl, rfl⟩⟩
  | raw => exact post_pure.2 ⟨.refl, fun _ => .refl⟩
  | other => exact post_pure.2 ⟨.refl, fun _ => .refl⟩

/-- The wait for data ends with one look that may turn the socket. -/
theorem turned_recvLoop (len : ℕ) (wantAddr nonblock : Bool) (tom : TimeoutManager)
    (hst : (w.sockets i).type = .stream →
      (w.sockets i).state = .accepted ∨ (w.sockets i).state = .connected) :
    Post (recvLoop B fuel i len wantAddr nonblock tom) (fun _ w' => Turned w w') w := by
  unfold recvLoop
  refine Post.iter (fun _ w' => w.Same w') ?_ fuel .refl
  intro _ w1 hs1
  rw [post_bind]
  refine (turned_recvRound B fuel len wantAddr ?_).mono ?_
  · rw [hs1.sockets]
    exact hst
  rintro r w2 ⟨h2, hs2⟩
  cases r with
  | some r => exact post_pure.2 (h2.of_same hs1)
  | none =>
      dsimp only
      rw [post_ite]
      constructor
      · intro _
        exact post_fail.2 (h2.of_same hs1)
      · intro _
        rw [post_bind]
        refine (same_timeoutEnded B tom).mono ?_
        intro ended w3 hs3
        have hs := (hs1.trans (hs2 rfl)).trans hs3
        rw [post_ite]
        exact ⟨fun _ => post_pure.2 (turned_of_same hs), fun _ => post_pure.2 hs⟩

/-- `recvfrom` turns one socket. -/
theorem turned_recvfrom (fd : ℤ) (len : ℕ) (wantAddr : Bool) :
    Post (recvfrom B fuel fd len wantAddr) (fun _ w' => Turned w w') w := by
  unfold recvfrom
  refine turned_onSocket rfl fun i => ?_
  dsimp only
  rw [post_bind, post_getSlot]
  simp only [post_ite]
  refine ⟨fun _ => post_fail.2 .refl, fun hstream => ⟨fun _ => post_fail.2 .refl, fun _ =>
    ⟨fun _ => post_pure.2 .refl, fun _ => ?_⟩⟩⟩
  rw [post_bind]
  apply post_isNonblock
  intro dfd _
  rw [post_bind]
  refine (same_timeoutUnless B _ _).mono ?_
  intro tom w1 hs1
  refine (turned_recvLoop B fuel len wantAddr _ tom ?_).mono fun _ _ h => h.of_same hs1
  rw [hs1.sockets]
  intro htype
  by_contra hst
  exact hstream ⟨htype, fun ha => hst (.inl ha), fun hc => hst (.inr hc)⟩

/-! ### Sending -/

/-- Sending turns the socket when the connection is gone. -/
theorem turned_sendLoop (nonblock : Bool) (tom : TimeoutManager) (buf : List Byte)
    (hst : (w.sockets i).state = .accepted ∨ (w.sockets i).state = .connected) :
    Post (sendLoop B fuel i nonblock tom buf) (fun _ w' => Turned w w') w := by
  unfold sendLoop
  -- until the connection is found gone the tables stay as they are
  refine Post.iter (fun _ w' => w.Same w') ?_ fuel .refl
  intro bytes w1 hs1
  rw [post_ite]
  constructor
  · intro _
    exact post_pure.2 (turned_of_same hs1)
  · intro _
    rw [post_bind, post_getSlot]
    apply post_onChip_bind
    intro n c2
    have hs2 := hs1.trans (World.same_setChip (w := w1) c2)
    rw [post_ite]
    constructor
    · intro _
      rw [post_ite]
      exact ⟨fun _ => post_pure.2 (turned_of_same hs2), fun _ => post_pure.2 hs2⟩
    · intro _
      rw [post_bind]
      refine (turned_manageDisconnect B fuel ?_).mono ?_
      · rw [hs2.sockets]
        exact hst
      · rintro gone w3 ⟨h3, hs3⟩
        cases gone with
        | true => exact post_pure.2 (h3.of_same hs2)
        | false =>
            have hs3 := hs2.trans (hs3 rfl)
            rw [if_neg Bool.false_ne_true, post_ite]
            constructor
            · intro _
              exact post_fail.2 (h3.of_same hs2)
            · intro _
              rw [post_bind]
              refine (same_timeoutEnded B tom).mono ?_
              intro ended w4 hs4
              have hs := hs3.trans hs4
              rw [post_ite]
              exact ⟨fun _ => post_pure.2 (turned_of_same hs), fun _ => post_pure.2 hs⟩

theorem turned_sendTcp (buf : List Byte) :
    Post (sendTcp B fuel i buf) (fun _ w' => Turned w w') w := by
  unfold sendTcp
  rw [post_bind, post_getSlot, post_ite]
  constructor
  · intro _
    exact post_fail.2 .refl
  · intro hst
    rw [post_bind]
    apply post_isNonblock
    intro dfd _
    rw [post_bind]
    refine (same_timeoutUnless B _ _).mono ?_
    intro tom w1 hs1
    rw [post_bind]
    refine (turned_sendLoop B fuel _ tom buf ?_).mono fun _ _ h => post_pure.2 (h.of_same hs1)
    rw [hs1.sockets]
    by_contra hc
    exact hst ⟨fun ha => hc (.inl ha), fun hc' => hc (.inr hc')⟩

/-! ### Datagrams -/

/-- A datagram socket is bound before it sends. -/
theorem turned_sendtoUdp (buf : List Byte) (dest : Option SockaddrIn) :
    Post (sendtoUdp B fuel i buf dest) (fun _ w' => Turned w w') w := by
  unfold sendtoUdp
  rw [post_bind]
  refine (turned_checkBindUdp B fuel).mono ?_
  intro _ w1 h1
  rw [post_bind, post_getSlot, post_ite]
  constructor
  · intro _
    exact post_fail.2 h1
  · intro _
    cases dest with
    | none => exact post_fail.2 h1
    | some peer =>
        dsimp only
        rw [post_ite]
        constructor
        · intro _
          exact post_fail.2 h1
        · intro _
          rw [post_bind]
          apply post_isNonblock
          intro dfd _
          rw [post_bind]
          refine (same_timeoutUnless B _ _).mono ?_
          intro tom w2 hs2
          refine (same_sendtoLoop B fuel i buf peer _ tom).mono ?_
          intro r w3 hs3
          exact h1.trans (turned_of_same (hs2.trans hs3))

theorem turned_send (fd : ℤ) (buf : List Byte) :
    Post (send B fuel fd buf) (fun _ w' => Turned w w') w := by
  unfold send
  refine turned_onSocket rfl fun i => ?_
  dsimp only
  rw [post_bind, post_getSlot]
  cases (w.sockets i).type with
  | dgram =>
      dsimp only
      rw [post_ite]
      exact ⟨fun _ => post_fail.2 .refl, fun _ => turned_sendtoUdp B fuel buf _⟩
  | stream => exact turned_sendTcp B fuel buf
  | raw => exact post_fail.2 .refl
  | other => exact post_fail.2 .refl

/-- `sendto` turns one socket. -/
theorem turned_sendto (fd : ℤ) (buf : List Byte) (dest : Option SockaddrIn) :
    Post (sendto B fuel fd buf dest) (fun _ w' => Turned w w') w := by
  unfold sendto
  refine turned_onSocket rfl fun i => ?_
  dsimp only
  rw [post_bind, post_getSlot]
  cases (w.sockets i).type with
  | stream => exact turned_sendTcp B fuel buf
  | dgram => exact turned_sendtoUdp B fuel buf dest
  | raw => exact post_fail.2 .refl
  | other => exact post_fail.2 .refl

/-! ## `setsockopt` and `fcntl` -/

/-- A time-out of the socket is set. -/
theorem turned_setsockopt (fd : ℤ) (solSocket : Bool) (option : SocketOption) :
    Post (setsockopt fd solSocket option) (fun _ w' => Turned w w') w := by
  unfold setsockopt
  refine turned_onSocket rfl fun i => ?_
  dsimp only
  rw [post_ite]
  constructor
  · intro _
    exact post_fail.2 .refl
  · intro _
    cases option with
    | other => exact post_fail.2 .refl
    | broadcast value =>
        dsimp only
        rw [post_bind, post_modifySlot, post_pure]
        exact turned_slot ⟨rfl, rfl, rfl, rfl, rfl, .inl rfl⟩
    | rcvtimeo value =>
        dsimp only
        rw [post_bind, post_modifySlot, post_pure]
        exact turned_slot ⟨rfl, rfl, rfl, rfl, rfl, .inl rfl⟩
    | sndtimeo value =>
        dsimp only
        rw [post_bind, post_modifySlot, post_pure]
        exact turned_slot ⟨rfl, rfl, rfl, rfl, rfl, .inl rfl⟩

/-- The flags of a descriptor are set. -/
theorem turned_fcntl {κ δ ψ : Type} {w : World χ (Fat.FatFs κ δ ψ)} (fd : ℤ) (cmd : FcntlCmd) :
    Post (Nucleo.fcntl fd cmd) (fun _ w' => Turned w w') w := by
  unfold Nucleo.fcntl
  rw [post_bind]
  apply post_fileStructGet
  · intro _
    exact post_fail.2 .refl
  · intro d _
    cases cmd with
    | getfd =>
        dsimp only
        rw [post_bind, post_get, post_pure]
    | getfl =>
        dsimp only
        rw [post_bind, post_get, post_pure]
    | other => exact post_fail.2 .refl
    | setfd flags =>
        dsimp only
        rw [post_bind, post_modifyFile, post_pure]
        exact .single (.flags d flags (w.files d).statusFlags)
    | setfl flags =>
        dsimp only
        rw [post_bind, post_modifyFile, post_pure]
        exact .single (.flags d (w.files d).descriptorFlags flags)

end Turned

end W5100

end Nucleo
