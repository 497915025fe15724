/-
# Descriptors stay with their connections

`accept` returns a descriptor for one connection of the chip.  A run is watched for it: each
descriptor that `accept` gave out is tied to the connection that was there (`Watch.ties`), and
what `recv`, `send` and `close` of a tied descriptor do with connections is written down beside
its own (`Watch.uses`).

`staysTied_of_run`: a descriptor stays with its connection in every run in which no call goes
astray (`Astray`).  A peer that leaves makes `recv` put the slot back to `LISTENING`, and the
next `accept` on it gives the connection of another peer to the slot that the first descriptor
still points to (`not_staysTied_second_peer`).
-/
import Nucleo.W5100OwnershipRuns
import Nucleo.W5100Linked
import Nucleo.W5100OnConnection

namespace Nucleo

namespace W5100

open Comp

variable {χ κ δ ψ : Type}

/-! ## Watched runs -/

/-- The descriptor of a call that uses a connection. -/
def NetCall.connFd {χ : Type} : NetCall χ → Option ℤ
  | .recv fd _ => some fd
  | .recvfrom fd _ _ => some fd
  | .send fd _ => some fd
  | .sendto fd _ _ => some fd
  | .close fd => some fd
  | _ => none

/-- A state with the connection that each descriptor is tied to, and for each use of a
connection by `recv`, `send` or `close` of such a descriptor the connection it is tied to. -/
structure Watch (χ κ δ ψ : Type) where
  world : World (χ × List ConnUse) (Fat.FatFs κ δ ψ)
  ties : Fin openMax → Option ℕ
  uses : List (ℕ × ConnUse)

namespace Watch

variable (s : Watch χ κ δ ψ) (C : Connections χ)

/-- The connection that the descriptor of a call is tied to. -/
def tie (call : NetCall (χ × List ConnUse)) : Option ℕ :=
  call.connFd.bind fun fd =>
    ((List.finRange openMax).find? fun d => (d.val : ℤ) = fd).bind s.ties

/-- What a descriptor is tied to after a call: a descriptor that `accept` gives out is tied to
the last connection of its slot, until it is closed. -/
def tieAfter (call : NetCall (χ × List ConnUse))
    (w' : World (χ × List ConnUse) (Fat.FatFs κ δ ψ)) (d : Fin openMax) : Option ℕ :=
  if (w'.files d).isallocated = false then none
  else if (s.world.files d).isallocated = true then s.ties d
  else match call with
    | .accept _ _ => (slotOf (w'.files d).opaquePtr).map (C.count w'.chip.1)
    | _ => none

/-- The watch after a call that has ended in `w'`. -/
def after (call : NetCall (χ × List ConnUse))
    (w' : World (χ × List ConnUse) (Fat.FatFs κ δ ψ)) : Watch χ κ δ ψ where
  world := w'
  ties := s.tieAfter C call w'
  uses := ((s.tie call).elim [] fun K => w'.chip.2.map fun u => (K, u)) ++ s.uses

/-- The world with nothing in the list of uses. -/
def cleared : World (χ × List ConnUse) (Fat.FatFs κ δ ψ) :=
  s.world.setChip (s.world.chip.1, [])

/-- No descriptor has been given out by `accept`. -/
def start (w : World (χ × List ConnUse) (Fat.FatFs κ δ ψ)) : Watch χ κ δ ψ :=
  ⟨w, fun _ => none, []⟩

end Watch

/-- A call that is watched. -/
def watchedExec (B : Board χ) (L : Fat.FatLib κ δ ψ) (C : Connections χ)
    (call : ℕ × NetCall (χ × List ConnUse)) : Comp (Watch χ κ δ ψ) Stop ℤ := fun s =>
  match NetCall.exec (B.watched C) L call s.cleared with
  | .ok (r, w') => .ok (r, s.after C call.2 w')
  | .error e => .error e

/-- The descriptors that `accept` returned are used with their own connections only. -/
def StaysTied (s : Watch χ κ δ ψ) : Prop := ∀ p ∈ s.uses, p.2.conn = p.1

/-- A descriptor that `accept` returned, while its slot has been given to another and would
take a `recv` or a `send`. -/
def Supplanted (s : Watch χ κ δ ψ) (fd : ℤ) : Prop :=
  ∃ (d : Fin openMax) (i : Fin nSockets), fd = (d.val : ℤ) ∧ s.ties d ≠ none ∧
    (s.world.files d).opaquePtr = .slot i ∧ (s.world.sockets i).connectionData ≠ some d ∧
    ((s.world.sockets i).type = .stream → (s.world.sockets i).state = .accepted ∨
      (s.world.sockets i).state = .connected)

/-- A descriptor that `accept` returned and that its slot still holds, while a later connection
is established there. -/
def Outlived (C : Connections χ) (s : Watch χ κ δ ψ) (fd : ℤ) : Prop :=
  ∃ (d : Fin openMax) (i : Fin nSockets), fd = (d.val : ℤ) ∧
    (∃ k ∈ s.ties d, k < C.count s.world.chip.1 i) ∧
    (s.world.sockets i).connectionData = some d ∧ C.established s.world.chip.1 i = true

/-- A call that may use the connection of another peer. -/
def Astray (C : Connections χ) (s : Watch χ κ δ ψ) : NetCall (χ × List ConnUse) → Prop
  | .recv fd _ => Supplanted s fd
  | .recvfrom fd _ _ => Supplanted s fd
  | .send fd _ => Supplanted s fd
  | .sendto fd _ _ => Supplanted s fd
  | .close fd => Outlived C s fd
  | _ => False

/-! ## Ties -/

/-- The descriptor `d` was given out for the connection `k` of the slot `i`.  While the slot is
accepted for it, that connection is the last one of the socket. -/
structure Holds {φ : Type} (C : Connections χ) (w : World (χ × List ConnUse) φ)
    (d : Fin openMax) (k : ℕ) (i : Fin nSockets) : Prop extends ForConnection w.tables d i where
  since : k ≤ C.count w.chip.1 i
  there : (w.sockets i).connectionData = some d → (w.sockets i).state = .accepted →
    C.waits w.chip.1 i = false ∧ C.count w.chip.1 i = k

section Ties

variable {φ : Type} {C : Connections χ} {w w' : World (χ × List ConnUse) φ} {d : Fin openMax}
  {k : ℕ} {i : Fin nSockets}

theorem Holds.joined (h : Holds C w d k i) (hfor : ForConnection w'.tables d i)
    (hj : Joined C w w') : Holds C w' d k i := by
  refine ⟨hfor, h.since.trans (hj.grows i), fun hconn hacc => ?_⟩
  rcases hj.joins i hacc with ⟨hacc', heq, hrests⟩ | ⟨-, d', hd', hfresh⟩
  · obtain ⟨hwaits, hcount⟩ := h.there (heq.symm.trans hconn) hacc'
    obtain ⟨hwaits', hcount'⟩ := hrests.rests hwaits
    exact ⟨hwaits', hcount'.trans hcount⟩
  · -- the new descriptor is not `d`, which has been allocated
    rw [← Option.some.inj (hconn.symm.trans hd'), show (w.files d).isallocated = true from
      h.isallocated] at hfresh
    exact Bool.noConfusion hfresh

/-- A descriptor is given out for the last connection. -/
theorem Holds.given (hl : Linked w.tables) (hfresh : (w.files d).isallocated = false)
    (hfor : ForConnection w'.tables d i) (hj : Joined C w w') :
    Holds C w' d (C.count w'.chip.1 i) i := by
  refine ⟨hfor, le_rfl, fun hconn hacc => ?_⟩
  rcases hj.joins i hacc with ⟨-, heq, -⟩ | ⟨hwaits, -⟩
  · -- the slot cannot have had the descriptor before
    exact absurd (.inr (heq.symm.trans hconn)) (hl.not_points hfresh i)
  · exact ⟨hwaits, rfl⟩

/-- What is used of the slot's connection while it waits for no other. -/
theorem Ended.log (h : Ended C i w w') (hi : (w.sockets i).isocket = i)
    (hwaits : C.waits w.chip.1 i = false) : ∃ us, w'.chip.2 = us ++ w.chip.2 ∧
      ∀ u ∈ us, u.conn = C.count w.chip.1 i := by
  have hpassed : ∀ {w' : World (χ × List ConnUse) φ}, Passed C i w w' →
      ∃ us, w'.chip.2 = us ++ w.chip.2 ∧ ∀ u ∈ us, u.conn = C.count w.chip.1 i := by
    intro w' hp
    have hused := hp.used
    rw [hi] at hused
    obtain ⟨us, hlog, hus⟩ := hused.log
    refine ⟨us, hlog, fun u hu => ?_⟩
    obtain ⟨-, hlo, hhi⟩ := hus u hu
    rw [((hused.rests i).rests hwaits).2] at hhi
    exact le_antisymm hhi hlo
  cases h with
  | passed hp => exact hpassed hp
  | relistened hp hst hlistened =>
      obtain ⟨us, hlog, hus⟩ := hpassed hp
      exact ⟨us, hlistened.log.trans hlog, hus⟩
  | disconnected hp =>
      obtain ⟨us, hlog, hus⟩ := hpassed hp
      exact ⟨us, hlog, hus⟩

/-- `recv` and `send` of a descriptor that the slot holds, or whose slot does not take them. -/
theorem Holds.conn_of_onSlot (h : Holds C w d k i) (hs : Sound w.tables)
    (ht : TypedSlots w.tables)
    (hl : Linked w.tables) (hlog : w.chip.2 = [])
    (hok : (w.sockets i).connectionData ≠ some d → ¬ ((w.sockets i).type = .stream →
      (w.sockets i).state = .accepted ∨ (w.sockets i).state = .connected))
    (ho : OnSlot C (d.val : ℤ) w w') : ∀ u ∈ w'.chip.2, u.conn = k := by
  intro u hu
  rcases ho with hchip | ⟨d', i', hdd, hptr, hcall⟩
  · rw [hchip, hlog] at hu
    exact absurd hu List.not_mem_nil
  · have hd : d = d' := Fin.ext (by omega)
    subst hd
    have hii : i' = i := Opaque.slot.inj (hptr.symm.trans h.opaquePtr)
    subst hii
    have hconn : (w.sockets i').connectionData = some d := by
      by_contra hne
      exact hok hne fun htype => (hcall htype).1
    have hne : (w.sockets i').connectionData ≠ none := by
      rw [hconn]
      exact Option.some_ne_none d
    obtain ⟨hstate, hended⟩ := hcall ((ht i').connection hne)
    -- a slot with the descriptor of a connection is not `CONNECTED`
    have hacc : (w.sockets i').state = .accepted := by
      refine hstate.resolve_right fun hconnected => ?_
      have hany : (w.sockets i').state = .accepted ∨ (w.sockets i').state = .listening ∨
        (w.sockets i').state = .disconnected := hl.accepted i' hne
      simp [hconnected] at hany
    obtain ⟨hwaits, hcount⟩ := h.there hconn hacc
    obtain ⟨us, hus, hall⟩ := hended.log (hs.isocket i' (.inr ⟨d, .inr hconn⟩)) hwaits
    rw [hus, hlog, List.append_nil] at hu
    exact (hall u hu).trans hcount

/-- `close` of a descriptor, unless a later connection is established. -/
theorem Holds.conn_of_onClose (h : Holds C w d k i) (hl : Linked w.tables) (hlog : w.chip.2 = [])
    (hok : (w.sockets i).connectionData = some d → C.established w.chip.1 i = true →
      ¬ k < C.count w.chip.1 i)
    (ho : OnClose C (d.val : ℤ) w w') : ∀ u ∈ w'.chip.2, u.conn = k := by
  intro u hu
  rcases ho with hchip | ⟨d', i', hdd, hown | ⟨hconn, us, hus, hall⟩⟩
  · rw [hchip, hlog] at hu
    exact absurd hu List.not_mem_nil
  · have hd : d = d' := Fin.ext (by omega)
    subst hd
    exact absurd hown (h.notOwn i')
  · have hd : d = d' := Fin.ext (by omega)
    subst hd
    have hii : i' = i := Opaque.slot.inj ((hl.points i' d (.inr hconn)).2.symm.trans h.opaquePtr)
    subst hii
    rw [hus, hlog, List.append_nil] at hu
    obtain ⟨-, hcount, hest⟩ := hall u hu
    have hnot := hok hconn hest
    have hsince := h.since
    omega

end Ties

/-! ## Runs -/

section Runs

variable {B : Board χ} {C : Connections χ} (L : Fat.FatLib κ δ ψ) {s : Watch χ κ δ ψ}

theorem Watch.tie_eq_some {call : NetCall (χ × List ConnUse)} {k : ℕ}
    (h : s.tie call = some k) : ∃ d : Fin openMax, call.connFd = some (d.val : ℤ) ∧
      s.ties d = some k := by
  obtain ⟨fd, hfd, hbind⟩ := Option.bind_eq_some_iff.1 h
  obtain ⟨d, hd, htie⟩ := Option.bind_eq_some_iff.1 hbind
  have hdfd : (d.val : ℤ) = fd := by simpa using List.find?_some hd
  exact ⟨d, hfd.trans (congrArg some hdfd.symm), htie⟩

theorem post_watchedExec {call : ℕ × NetCall (χ × List ConnUse)}
    {Q : ℤ → Watch χ κ δ ψ → Prop} (h : Post (NetCall.exec (B.watched C) L call)
      (fun r w' => Q r (s.after C call.2 w')) s.cleared) :
    Post (watchedExec B L C call) Q s := by
  intro r s' heq
  unfold watchedExec at heq
  cases hexec : NetCall.exec (B.watched C) L call s.cleared with
  | error e =>
      rw [hexec] at heq
      cases heq
  | ok p =>
      rw [hexec] at heq
      cases heq
      exact h _ _ hexec

/-! ### The invariant -/

/-- What holds of a watched state. -/
structure Sane (C : Connections χ) (s : Watch χ κ δ ψ) : Prop where
  sound : Sound s.world.tables
  typed : TypedSlots s.world.tables
  linked : Linked s.world.tables
  holds : ∀ d k, s.ties d = some k → ∃ i, Holds C s.world d k i
  tied : StaysTied s

/-- A call that does not go astray uses the connection that its descriptor is tied to. -/
theorem Sane.conn_of_tie (h : Sane C s) (hC : C.Obeys B) (hroom : B.RoomBounded)
    (call : ℕ × NetCall (χ × List ConnUse)) (hok : ¬ Astray C s call.2) :
    Post (NetCall.exec (B.watched C) L call)
      (fun _ w' => ∀ k, s.tie call.2 = some k → ∀ u ∈ w'.chip.2, u.conn = k) s.cleared := by
  obtain ⟨fuel, call⟩ := call
  have hsound : Sound s.cleared.tables := h.sound
  -- `recv` and `send`
  have hdata : ∀ {x : Fat.FatSys (χ × List ConnUse) κ δ ψ ℤ} (fd : ℤ),
      call.connFd = some fd → ¬ Supplanted s fd →
      Post x (fun _ w' => OnConnection C fd s.cleared w') s.cleared →
      Post x (fun _ w' => ∀ k, s.tie call = some k → ∀ u ∈ w'.chip.2, u.conn = k) s.cleared := by
    intro x fd hfd hown hx
    refine hx.mono fun _ w' ho k htie => ?_
    obtain ⟨d, hd, hk⟩ := Watch.tie_eq_some htie
    obtain ⟨i, hi⟩ := h.holds d k hk
    have hi' : Holds C s.cleared d k i := ⟨hi.toForConnection, hi.since, hi.there⟩
    have hdd : fd = (d.val : ℤ) := Option.some.inj (hfd.symm.trans hd)
    have hon := ho.onSlot
    rw [hdd] at hon
    refine hi'.conn_of_onSlot h.sound h.typed h.linked rfl (fun hne htakes => hown ?_) hon
    refine ⟨d, i, hdd, ?_, hi.opaquePtr, hne, htakes⟩
    rw [hk]
    exact Option.some_ne_none k
  have hother : ∀ {x : Fat.FatSys (χ × List ConnUse) κ δ ψ ℤ}, call.connFd = none →
      Post x (fun _ w' => ∀ k, s.tie call = some k → ∀ u ∈ w'.chip.2, u.conn = k) s.cleared := by
    intro x hnone _ w' _ k htie
    obtain ⟨d, hd, -⟩ := Watch.tie_eq_some htie
    exact absurd (hnone.symm.trans hd) (Option.some_ne_none _).symm
  cases call with
  | recv fd len =>
      refine hdata fd rfl hok ?_
      show Post (W5100.recv _ fuel fd len >>= _) _ _
      rw [post_bind]
      exact (onConnection_recvfrom hC fuel hsound fd len false).mono fun _ _ ho => post_pure.2 ho
  | recvfrom fd len wantAddr =>
      refine hdata fd rfl hok ?_
      show Post (W5100.recvfrom _ fuel fd len wantAddr >>= _) _ _
      rw [post_bind]
      exact (onConnection_recvfrom hC fuel hsound fd len wantAddr).mono
        fun _ _ ho => post_pure.2 ho
  | send fd buf =>
      exact hdata fd rfl hok
        (onConnection_send hC fuel hroom hsound fd buf)
  | sendto fd buf dest =>
      exact hdata fd rfl hok
        (onConnection_sendto hC fuel hroom hsound fd buf dest)
  | close fd =>
      refine (onClose_sysClose hC fuel L hsound fd).mono fun _ w' ho k htie => ?_
      obtain ⟨d, hd, hk⟩ := Watch.tie_eq_some htie
      obtain ⟨i, hi⟩ := h.holds d k hk
      have hi' : Holds C s.cleared d k i := ⟨hi.toForConnection, hi.since, hi.there⟩
      have hon := ho.2
      have hfd : fd = (d.val : ℤ) := Option.some.inj hd
      rw [hfd] at hon
      refine hi'.conn_of_onClose h.linked rfl (fun hconn hest hlt => hok ?_) hon
      exact ⟨d, i, hfd, ⟨k, hk, hlt⟩, hconn, hest⟩
  | socket domain type protocol => exact hother rfl
  | bind fd addr => exact hother rfl
  | connect fd addr => exact hother rfl
  | listen fd => exact hother rfl
  | accept fd wantAddr => exact hother rfl
  | setsockopt fd solSocket option => exact hother rfl
  | fcntl fd cmd => exact hother rfl
  | poll fd events => exact hother rfl
  | event chip => exact hother rfl

/-- Every call that does not go astray keeps what holds of a watched state. -/
theorem Sane.step (h : Sane C s) (hC : C.Obeys B) (hroom : B.RoomBounded)
    (call : ℕ × NetCall (χ × List ConnUse)) (hpeers : PeersOnly C s.world.chip.1 call.2)
    (hok : ¬ Astray C s call.2) : Post (watchedExec B L C call) (fun _ s' => Sane C s') s := by
  have hsound : Sound s.cleared.tables := h.sound
  refine post_watchedExec L ?_
  refine ((effect_exec (B.watched C) L hsound call).and
    ((joined_exec hC hroom L hsound call hpeers).and
      (h.conn_of_tie L hC hroom call hok))).mono ?_
  rintro r w' ⟨heffect, hjoined, hconn⟩
  refine ⟨h.sound.effect heffect, TypedSlots.effect (T := s.world.tables) h.typed heffect,
    Linked.effect (T := s.world.tables) h.linked heffect, fun d k htie => ?_, fun p hp => ?_⟩
  · -- a descriptor stays tied, or is given out
    have htie' : s.tieAfter C call.2 w' d = some k := htie
    unfold Watch.tieAfter at htie'
    split_ifs at htie' with hfree hbefore
    · have halloc : (w'.files d).isallocated = true := by simpa using hfree
      obtain ⟨i, hi⟩ := h.holds d k htie'
      have hi' : Holds C s.cleared d k i := ⟨hi.toForConnection, hi.since, hi.there⟩
      exact ⟨i, hi'.joined (hi.toForConnection.effect heffect halloc) hjoined⟩
    · have halloc : (w'.files d).isallocated = true := by simpa using hfree
      have hfresh : (s.world.files d).isallocated = false := by simpa using hbefore
      obtain ⟨fuel, call⟩ := call
      cases call with
      | accept fd wantAddr =>
          obtain ⟨i, hi⟩ :=
            forConnection_accept (T := s.world.tables) h.linked heffect hfresh halloc
          have hptr : (w'.files d).opaquePtr = .slot i := hi.opaquePtr
          dsimp only at htie'
          rw [hptr] at htie'
          obtain rfl : C.count w'.chip.1 i = k := Option.some.inj htie'
          have hl : Linked s.cleared.tables := h.linked
          exact ⟨i, .given hl hfresh hi hjoined⟩
      | _ => cases htie'
  · -- the uses of this call, and those before
    rcases List.mem_append.1 hp with hp | hp
    · cases htie : s.tie call.2 with
      | none =>
          rw [htie] at hp
          exact absurd hp List.not_mem_nil
      | some k =>
          rw [htie] at hp
          obtain ⟨u, hu, rfl⟩ := List.mem_map.1 hp
          exact hconn k htie u hu
    · exact h.tied p hp

/-- **Descriptors stay with their connections** in every run from `w5100_socket_init`, with any
order of peers that connect and disconnect, in which no call goes astray. -/
theorem staysTied_of_run (hC : C.Obeys B) (hroom : B.RoomBounded) {static : Option StaticIp}
    {fuel : ℕ} {chip : χ} {fat : Fat.FatFs κ δ ψ}
    {w₀ : World (χ × List ConnUse) (Fat.FatFs κ δ ψ)}
    (hinit : socketInit (B.watched C) fuel static (bootWorld (chip, []) fat) = .ok ((), w₀))
    (hrun : Run (watchedExec B L C)
      (fun s call => PeersOnly C s.world.chip.1 call.2 ∧ ¬ Astray C s call.2) (.start w₀) s) :
    StaysTied s := by
  obtain ⟨hfiles, hfreed⟩ := freed_socketInit (B.watched C) fuel static _ _ hinit
  have hstart : Sane C (Watch.start w₀) := by
    exact ⟨sound_start hfiles hfreed, typed_start hfreed, linked_start hfreed,
      (fun _ _ htie => by cases htie), fun _ hp => absurd hp List.not_mem_nil⟩
  exact (hrun.invariant hstart fun s call h hok => h.step L hC hroom call hok.1 hok.2).tied

end Runs

/-! ## A chip with one socket in use -/

/-- The status register of socket 0, the bytes in its receive ring and its connections. -/
structure Line where
  status : Byte
  received : Byte
  count : ℕ
  deriving DecidableEq, Repr

/-- What a command does; `CONNECT` is refused at once. -/
def Line.command (c : Line) (val : Byte) : Line :=
  if val = cmdOpen then { c with status := sockInit }
  else if val = cmdListen then { c with status := sockListen }
  else if val = cmdRecv then { c with received := 0 }
  else if val = cmdSend then c
  else { c with status := sockClosed }

/-- The line before the first call. -/
def Line.quiet : Line := ⟨sockClosed, 0, 0⟩

def lineBoard : Board Line where
  read reg c :=
    (if reg = sockRegGet regSR 0 then c.status
      else if reg = sockRegGet regRXRSR 0 + 1 then c.received
      else 0, c)
  write reg val c := if reg = sockRegGet regCR 0 then c.command val else c
  clockGettime c := (timespecZero, c)
  usartReady c := (true, c)
  usartRecv c := (0, c)
  usartSend _ c := c

def lineConnections : Connections Line where
  count c i := if i = 0 then c.count else 0
  established c i := i = 0 ∧ c.status = sockEstablished
  waits c i := i = 0 ∧ c.status = sockListen

/-! ### It obeys -/

theorem line_obeys : lineConnections.Obeys lineBoard := by
  have hcommand : ∀ (c : Line) (val : Byte), (c.command val).count = c.count := by
    intro c val
    unfold Line.command
    split_ifs <;> rfl
  have hwrite : ∀ reg val c, (lineBoard.write reg val c).count = c.count := by
    intro reg val c
    show (if reg = sockRegGet regCR 0 then c.command val else c).count = c.count
    split_ifs
    · exact hcommand c val
    · rfl
  -- no write makes a connection: peers do
  have hcount : ∀ reg val c i,
      lineConnections.count (lineBoard.write reg val c) i = lineConnections.count c i := by
    intro reg val c i
    simp only [lineConnections, hwrite]
  refine ⟨fun _ _ _ => .refl _ _, fun c i hsr => ?_, fun reg val c i hasks => ?_,
    fun reg val c i => (hcount reg val c i).ge, fun _ _ => .refl _ _⟩
  · by_cases hi : i = 0
    · subst hi
      have hst : c.status = sockEstablished := by simpa [lineBoard] using hsr
      simp [lineConnections, lineBoard, hst, sockEstablished, sockListen]
    · simp [lineConnections, hi]
  · refine ⟨(hcount reg val c i).ge, fun hw => ⟨?_, hcount reg val c i⟩⟩
    by_cases hi : i = 0
    · subst hi
      show decide (0 = 0 ∧ (if reg = sockRegGet regCR 0 then c.command val else c).status =
        sockListen) = false
      split_ifs with hreg
      · have hval : val ≠ cmdListen := fun hv => hasks ⟨hreg, .inl hv⟩
        have hst : c.status ≠ sockListen := by simpa [lineConnections] using hw
        unfold Line.command
        split_ifs <;> simp_all [sockInit, sockListen, sockClosed]
      · exact hw
    · simp [lineConnections, hi]

/-- The transmit rings offer no room. -/
theorem line_roomBounded : lineBoard.RoomBounded := by
  intro i c n c' h
  have hi : i.val < 4 := i.isLt
  have hzero : ∀ a, a = sockRegGet regTXFSR i ∨ a = sockRegGet regTXFSR i + 1 →
      readByte lineBoard a c = .ok (0, c) := by
    intro a ha
    have hne : a % 2 ^ 16 ≠ sockRegGet regSR 0 ∧ a % 2 ^ 16 ≠ sockRegGet regRXRSR 0 + 1 := by
      unfold sockRegGet s0RegsOffset socketRegsSize regTXFSR regSR regRXRSR at *
      rw [Fin.val_zero]
      omega
    unfold readByte lineBoard
    dsimp only
    rw [if_neg hne.1, if_neg hne.2]
  have hnone : writeBufLen lineBoard i c = .ok (0, c) := by
    unfold writeBufLen readSockReg16 readMem readMem
    rw [bind_eq, bind_eq, bind_eq, hzero _ (.inl rfl)]
    dsimp only
    rw [bind_eq, bind_eq, hzero _ (.inr rfl)]
    rfl
  rw [hnone] at h
  cases h
  exact Nat.zero_le _

/-! ### Two peers -/

/-- A server on port 80 whose first peer is accepted. -/
def firstPeer : List (ℕ × NetCall (Line × List ConnUse)) :=
  [(1, .socket .inet .stream 0), (1, .bind 3 ⟨.inet, 80, inaddrAny⟩), (1, .listen 3),
   (1, .event (⟨sockEstablished, 0, 1⟩, [])), (1, .accept 3 false)]

/-- The first peer leaves, and the second one is accepted and sends a byte. -/
def secondPeer : List (ℕ × NetCall (Line × List ConnUse)) :=
  [(1, .event (⟨sockCloseWait, 0, 1⟩, [])), (1, .recv 4 1),
   (1, .event (⟨sockEstablished, 0, 2⟩, [])), (1, .accept 3 false),
   (1, .event (⟨sockEstablished, 1, 2⟩, []))]

instance (C : Connections χ) (i : Fin nSockets) (c c' : χ) : Decidable (C.Rests i c c') :=
  decidable_of_iff (C.count c i ≤ C.count c' i ∧ (C.waits c i = false →
    C.waits c' i = false ∧ C.count c' i = C.count c i)) ⟨fun h => ⟨h.1, h.2⟩, fun h => ⟨h.1, h.2⟩⟩

instance (C : Connections χ) (c : χ) (call : NetCall (χ × List ConnUse)) :
    Decidable (PeersOnly C c call) :=
  match call with
  | .event chip => inferInstanceAs (Decidable (∀ i, C.Rests i c chip.1))
  | .socket .. | .bind .. | .connect .. | .listen .. | .accept .. | .send .. | .sendto .. |
    .recv .. | .recvfrom .. | .setsockopt .. | .fcntl .. | .poll .. | .close .. =>
      inferInstanceAs (Decidable True)

instance (s : Watch χ κ δ ψ) (fd : ℤ) : Decidable (Supplanted s fd) :=
  inferInstanceAs (Decidable (∃ (d : Fin openMax) (i : Fin nSockets), fd = (d.val : ℤ) ∧
    s.ties d ≠ none ∧ (s.world.files d).opaquePtr = .slot i ∧
    (s.world.sockets i).connectionData ≠ some d ∧ ((s.world.sockets i).type = .stream →
      (s.world.sockets i).state = .accepted ∨ (s.world.sockets i).state = .connected)))

instance (C : Connections χ) (s : Watch χ κ δ ψ) (fd : ℤ) : Decidable (Outlived C s fd) :=
  inferInstanceAs (Decidable (∃ (d : Fin openMax) (i : Fin nSockets), fd = (d.val : ℤ) ∧
    (∃ k ∈ s.ties d, k < C.count s.world.chip.1 i) ∧
    (s.world.sockets i).connectionData = some d ∧ C.established s.world.chip.1 i = true))

instance (C : Connections χ) (s : Watch χ κ δ ψ) (call : NetCall (χ × List ConnUse)) :
    Decidable (Astray C s call) :=
  match call with
  | .recv fd _ | .recvfrom fd _ _ | .send fd _ | .sendto fd _ _ =>
      inferInstanceAs (Decidable (Supplanted s fd))
  | .close fd => inferInstanceAs (Decidable (Outlived C s fd))
  | .socket .. | .bind .. | .connect .. | .listen .. | .accept .. | .setsockopt .. |
    .fcntl .. | .poll .. | .event .. => inferInstanceAs (Decidable False)

/-- The watched state after `w5100_socket_init` and the calls, while `ok` allows them. -/
def lineRun (ok : Watch Line Unit Unit Unit → ℕ × NetCall (Line × List ConnUse) → Bool)
    (calls : List (ℕ × NetCall (Line × List ConnUse))) : Option (Watch Line Unit Unit Unit) :=
  match socketInit (lineBoard.watched lineConnections) 1 none (bootWorld (.quiet, []) noFiles) with
  | .ok (_, w₀) => runList (watchedExec lineBoard noDisk lineConnections) ok calls (.start w₀)
  | .error _ => none

theorem run_of_lineRun {ok : Watch Line Unit Unit Unit → ℕ × NetCall (Line × List ConnUse) → Prop}
    {okb : Watch Line Unit Unit Unit → ℕ × NetCall (Line × List ConnUse) → Bool}
    (hok : ∀ s call, okb s call = true → ok s call)
    {calls : List (ℕ × NetCall (Line × List ConnUse))} {s : Watch Line Unit Unit Unit}
    (h : lineRun okb calls = some s) :
    ∃ w₀, socketInit (lineBoard.watched lineConnections) 1 none
        (bootWorld (.quiet, []) noFiles) = .ok ((), w₀) ∧
      Run (watchedExec lineBoard noDisk lineConnections) ok (.start w₀) s := by
  unfold lineRun at h
  cases hinit : socketInit (lineBoard.watched lineConnections) 1 none
      (bootWorld (.quiet, []) noFiles) with
  | error e =>
      rw [hinit] at h
      cases h
  | ok r =>
      rw [hinit] at h
      exact ⟨r.2, rfl, Run.of_runList hok .start h⟩

/-- The first peer sends a byte, and the descriptor that it was accepted with receives it. -/
theorem staysTied_first_peer : ∃ s, lineRun
      (fun s call => PeersOnly lineConnections s.world.chip.1 call.2 ∧
        ¬ Astray lineConnections s call.2)
      (firstPeer ++ [(1, .event (⟨sockEstablished, 1, 1⟩, [])), (1, .recv 4 1)]) = some s ∧
    s.uses = [(1, ⟨0, .received, 1⟩)] ∧ StaysTied s := by
  have hsome : (lineRun (fun s call => PeersOnly lineConnections s.world.chip.1 call.2 ∧
        ¬ Astray lineConnections s call.2)
      (firstPeer ++ [(1, .event (⟨sockEstablished, 1, 1⟩, [])), (1, .recv 4 1)])).any
      (fun s => s.uses = [(1, ⟨0, .received, 1⟩)]) = true := by decide +kernel
  obtain ⟨s, hs, huses⟩ := (Option.any_eq_true _ _).1 hsome
  obtain ⟨w₀, hinit, hrun⟩ := run_of_lineRun (fun s call h => of_decide_eq_true h) hs
  exact ⟨s, hs, of_decide_eq_true huses,
    staysTied_of_run noDisk line_obeys line_roomBounded hinit hrun⟩

/-- The first peer leaves, `recv` puts the slot back to `LISTENING`, and a second peer is
accepted: the first descriptor receives the byte that the second peer sends. -/
theorem not_staysTied_second_peer : lineConnections.Obeys lineBoard ∧ lineBoard.RoomBounded ∧
    ∃ w₀ s, socketInit (lineBoard.watched lineConnections) 1 none
        (bootWorld (.quiet, []) noFiles) = .ok ((), w₀) ∧
      Run (watchedExec lineBoard noDisk lineConnections)
        (fun s call => PeersOnly lineConnections s.world.chip.1 call.2) (.start w₀) s ∧
      ¬ StaysTied s := by
  refine ⟨line_obeys, line_roomBounded, ?_⟩
  have hused : (lineRun (fun s call => PeersOnly lineConnections s.world.chip.1 call.2)
      (firstPeer ++ secondPeer ++ [(1, .recv 4 1)])).any
      (fun s => s.uses = [(1, ⟨0, .received, 2⟩)]) = true := by decide +kernel
  obtain ⟨s, hs, huses⟩ := (Option.any_eq_true _ _).1 hused
  have hreach : ∃ w₀, socketInit (lineBoard.watched lineConnections) 1 none
      (bootWorld (.quiet, []) noFiles) = .ok ((), w₀) ∧
      Run (watchedExec lineBoard noDisk lineConnections)
        (fun s call => PeersOnly lineConnections s.world.chip.1 call.2) (.start w₀) s :=
    run_of_lineRun (fun s call h => of_decide_eq_true h) hs
  obtain ⟨w₀, hinit, hrun⟩ := hreach
  refine ⟨w₀, s, hinit, hrun, fun htied => ?_⟩
  have huses' : s.uses = [(1, ⟨0, .received, 2⟩)] := of_decide_eq_true huses
  have hmem : (1, ⟨0, .received, 2⟩) ∈ s.uses := by
    rw [huses']
    exact List.mem_singleton_self _
  have hconn : 2 = 1 := htied _ hmem
  omega

end W5100

end Nucleo
