/-
# The connections of the chip

A socket of the chip takes one connection for each `LISTEN` or `CONNECT` command.  The
connections of a socket are counted, the present one being the last, and while a socket does
not wait for another the count stands still (`Connections.Rests`).

`Board.watched` is a board with a list beside it, which no call sees: for each command that
takes bytes, sends bytes or disconnects, the connection that it is given on.
-/
import Nucleo.W5100Meter

namespace Nucleo

namespace W5100

open Comp

variable {χ : Type}

/-- What is to be known of the sockets of a chip: the number of connections so far, whether
the last one is established, and whether the socket waits for another. -/
structure Connections (χ : Type) where
  count : χ → Fin nSockets → ℕ
  established : χ → Fin nSockets → Bool
  waits : χ → Fin nSockets → Bool

namespace Connections

variable (C : Connections χ)

/-- No connection is lost from the count, and without waiting none is added. -/
structure Rests (i : Fin nSockets) (c c' : χ) : Prop where
  grows : C.count c i ≤ C.count c' i
  rests : C.waits c i = false → C.waits c' i = false ∧ C.count c' i = C.count c i

/-- The command that makes a socket wait for a connection. -/
def Asks (i : Fin nSockets) (reg : ℕ) (val : Byte) : Prop :=
  reg = sockRegGet regCR i ∧ (val = cmdListen ∨ val = cmdConnect)

/-- The chip takes a connection only on a socket that waits for one, and then it waits no
more. -/
structure Obeys (B : Board χ) : Prop where
  read : ∀ reg c i, C.Rests i c (B.read reg c).2
  served : ∀ c i, (B.read (sockRegGet regSR i) c).1 = sockEstablished →
    C.waits (B.read (sockRegGet regSR i) c).2 i = false
  write : ∀ reg val c i, ¬ Asks i reg val → C.Rests i c (B.write reg val c)
  grows : ∀ reg val c i, C.count c i ≤ C.count (B.write reg val c) i
  clock : ∀ c i, C.Rests i c (B.clockGettime c).2

variable {C}

theorem Rests.refl (i : Fin nSockets) (c : χ) : C.Rests i c c := ⟨le_rfl, fun h => ⟨h, rfl⟩⟩

theorem Rests.trans {i : Fin nSockets} {c c' c'' : χ} (h : C.Rests i c c')
    (h' : C.Rests i c' c'') : C.Rests i c c'' := by
  refine ⟨h.grows.trans h'.grows, fun hw => ?_⟩
  obtain ⟨hw', heq⟩ := h.rests hw
  obtain ⟨hw'', heq'⟩ := h'.rests hw'
  exact ⟨hw'', heq'.trans heq⟩

end Connections

/-! ## The watched board -/

/-- What a command does with a connection. -/
inductive ConnAct
  | received | sent | disconnected
  deriving DecidableEq, Repr

/-- A command that was given on a connection of a socket. -/
structure ConnUse where
  socket : Fin nSockets
  act : ConnAct
  conn : ℕ
  deriving DecidableEq, Repr

/-- `RECV` takes the bytes that were read from the ring, `SEND` sends those written to it, and
`DISCON` ends a connection that is established. -/
def Connections.actOf (C : Connections χ) (c : χ) (i : Fin nSockets) (val : Byte) :
    Option ConnAct :=
  if val = cmdRecv then some .received
  else if val = cmdSend then some .sent
  else if val = cmdDiscon ∧ C.established c i = true then some .disconnected
  else none

/-- The uses that a write transaction makes of connections. -/
def Connections.uses (C : Connections χ) (reg : ℕ) (val : Byte) (c : χ) : List ConnUse :=
  (List.finRange nSockets).filterMap fun i =>
    if reg = sockRegGet regCR i then
      (C.actOf c i val).map fun act => ⟨i, act, C.count c i⟩
    else none

/-- The board with a list of the uses of connections, the last one first. -/
def Board.watched (B : Board χ) (C : Connections χ) : Board (χ × List ConnUse) where
  read reg c := ((B.read reg c.1).1, ((B.read reg c.1).2, c.2))
  write reg val c := (B.write reg val c.1, C.uses reg val c.1 ++ c.2)
  clockGettime c := ((B.clockGettime c.1).1, ((B.clockGettime c.1).2, c.2))
  usartReady c := ((B.usartReady c.1).1, ((B.usartReady c.1).2, c.2))
  usartRecv c := ((B.usartRecv c.1).1, ((B.usartRecv c.1).2, c.2))
  usartSend b c := (B.usartSend b c.1, c.2)

/-- A use is made by a write of the command register. -/
theorem mem_uses {C : Connections χ} {reg : ℕ} {val : Byte} {c : χ} {u : ConnUse}
    (h : u ∈ C.uses reg val c) :
    reg = sockRegGet regCR u.socket ∧ C.actOf c u.socket val = some u.act ∧
      u.conn = C.count c u.socket := by
  unfold Connections.uses at h
  obtain ⟨i, -, hi⟩ := List.mem_filterMap.1 h
  split_ifs at hi with hreg
  obtain ⟨act, hact, rfl⟩ := Option.map_eq_some_iff.1 hi
  exact ⟨hreg, hact, rfl⟩

/-- The commands that use a connection. -/
def Uses (val : Byte) : Prop := val = cmdRecv ∨ val = cmdSend ∨ val = cmdDiscon

instance (val : Byte) : Decidable (Uses val) :=
  inferInstanceAs (Decidable (val = cmdRecv ∨ val = cmdSend ∨ val = cmdDiscon))

/-- Other commands use no connection. -/
theorem uses_of_not_uses {C : Connections χ} {reg : ℕ} {val : Byte} {c : χ} (h : ¬ Uses val) :
    C.uses reg val c = [] := by
  refine List.eq_nil_iff_forall_not_mem.2 fun u hu => ?_
  obtain ⟨-, hact, -⟩ := mem_uses hu
  unfold Connections.actOf at hact
  rw [if_neg fun hv => h (.inl hv), if_neg fun hv => h (.inr (.inl hv)),
    if_neg fun hv => h (.inr (.inr hv.1))] at hact
  cases hact

/-- Every socket has a command register of its own. -/
theorem sockRegGet_regCR_inj {i k : Fin nSockets}
    (h : sockRegGet regCR i = sockRegGet regCR k) : i = k := by
  unfold sockRegGet s0RegsOffset regCR socketRegsSize at h
  exact Fin.ext (by omega)

/-! ## What happens between two states of the watched board -/

section Relations

variable (C : Connections χ) (k : Fin nSockets)

/-- No socket is made to wait, and nothing is used. -/
structure Quiet (c c' : χ × List ConnUse) : Prop where
  rests : ∀ i, C.Rests i c.1 c'.1
  log : c'.2 = c.2

/-- No socket is made to wait, and connections of the socket `k` are used. -/
structure Used (c c' : χ × List ConnUse) : Prop where
  rests : ∀ i, C.Rests i c.1 c'.1
  log : ∃ us, c'.2 = us ++ c.2 ∧
    ∀ u ∈ us, u.socket = k ∧ C.count c.1 k ≤ u.conn ∧ u.conn ≤ C.count c'.1 k

/-- The socket `k` may be made to wait, and nothing is used. -/
structure Listened (c c' : χ × List ConnUse) : Prop where
  rests : ∀ i, i ≠ k → C.Rests i c.1 c'.1
  grows : C.count c.1 k ≤ C.count c'.1 k
  log : c'.2 = c.2

/-- Only sockets in `asks` are made to wait, and only connections of sockets in `uses` are used. -/
structure Served (asks uses : Fin nSockets → Prop) (c c' : χ × List ConnUse) : Prop where
  rests : ∀ i, ¬ asks i → C.Rests i c.1 c'.1
  grows : ∀ i, C.count c.1 i ≤ C.count c'.1 i
  log : ∃ us, c'.2 = us ++ c.2 ∧ ∀ u ∈ us, uses u.socket ∧
    C.count c.1 u.socket ≤ u.conn ∧ u.conn ≤ C.count c'.1 u.socket

variable {C k} {c c' c'' : χ × List ConnUse} {asks uses : Fin nSockets → Prop}

theorem Served.refl (c : χ × List ConnUse) : Served C asks uses c c :=
  ⟨fun _ _ => .refl _ _, fun _ => le_rfl, [], rfl, fun _ hu => absurd hu List.not_mem_nil⟩

theorem Served.trans (h : Served C asks uses c c') (h' : Served C asks uses c' c'') :
    Served C asks uses c c'' := by
  obtain ⟨us, hlog, hus⟩ := h.log
  obtain ⟨us', hlog', hus'⟩ := h'.log
  refine ⟨fun i hi => (h.rests i hi).trans (h'.rests i hi),
    fun i => (h.grows i).trans (h'.grows i), us' ++ us, ?_, fun u hu => ?_⟩
  · rw [hlog', hlog, List.append_assoc]
  · rcases List.mem_append.1 hu with hu | hu
    · obtain ⟨hk, hlo, hhi⟩ := hus' u hu
      exact ⟨hk, (h.grows _).trans hlo, hhi⟩
    · obtain ⟨hk, hlo, hhi⟩ := hus u hu
      exact ⟨hk, hlo, hhi.trans (h'.grows _)⟩

instance : Std.Refl (Served C asks uses) := ⟨Served.refl⟩
instance : IsTrans _ (Served C asks uses) := ⟨fun _ _ _ => Served.trans⟩

/-- Where nothing may be used, the list stays. -/
theorem Served.log_eq (h : Served C asks (fun _ => False) c c') : c'.2 = c.2 := by
  obtain ⟨us, hlog, hus⟩ := h.log
  rw [hlog, List.eq_nil_iff_forall_not_mem.2 fun u hu => (hus u hu).1]
  rfl

/-- Who may ask for nothing and use nothing is quiet. -/
theorem Served.quiet (h : Served C (fun _ => False) (fun _ => False) c c') : Quiet C c c' :=
  ⟨fun i => h.rests i id, h.log_eq⟩

/-- Who may use one socket uses that one. -/
theorem Served.used (h : Served C (fun _ => False) (· = k) c c') : Used C k c c' := by
  obtain ⟨us, hlog, hus⟩ := h.log
  refine ⟨fun i => h.rests i id, us, hlog, fun u hu => ?_⟩
  obtain ⟨rfl, hbounds⟩ := hus u hu
  exact ⟨rfl, hbounds⟩

/-- Who may make one socket listen makes that one listen. -/
theorem Served.listened (h : Served C (· = k) (fun _ => False) c c') : Listened C k c c' :=
  ⟨h.rests, h.grows k, h.log_eq⟩

theorem Quiet.refl (c : χ × List ConnUse) : Quiet C c c := ⟨fun _ => .refl _ _, rfl⟩

theorem Quiet.trans (h : Quiet C c c') (h' : Quiet C c' c'') : Quiet C c c'' :=
  ⟨fun i => (h.rests i).trans (h'.rests i), h'.log.trans h.log⟩

/-- Being quiet is no use. -/
theorem Quiet.used (h : Quiet C c c') : Used C k c c' :=
  ⟨h.rests, [], h.log, fun _ hu => absurd hu List.not_mem_nil⟩

/-- It asks for nothing. -/
theorem Quiet.listened (h : Quiet C c c') : Listened C k c c' :=
  ⟨fun i _ => h.rests i, (h.rests k).grows, h.log⟩

theorem Used.trans (h : Used C k c c') (h' : Used C k c' c'') : Used C k c c'' := by
  obtain ⟨us, hlog, hus⟩ := h.log
  obtain ⟨us', hlog', hus'⟩ := h'.log
  refine ⟨fun i => (h.rests i).trans (h'.rests i), us' ++ us, ?_, fun u hu => ?_⟩
  · rw [hlog', hlog, List.append_assoc]
  · rcases List.mem_append.1 hu with hu | hu
    · obtain ⟨hk, hlo, hhi⟩ := hus' u hu
      exact ⟨hk, (h.rests k).grows.trans hlo, hhi⟩
    · obtain ⟨hk, hlo, hhi⟩ := hus u hu
      exact ⟨hk, hlo, hhi.trans (h'.rests k).grows⟩

theorem Listened.trans (h : Listened C k c c') (h' : Listened C k c' c'') : Listened C k c c'' :=
  ⟨fun i hi => (h.rests i hi).trans (h'.rests i hi), h.grows.trans h'.grows, h'.log.trans h.log⟩

end Relations

/-! ## The chip computations -/

/-- Only sockets in `asks` are made to wait, only connections of sockets in `uses` are used, and the
slots change in the ways given. -/
def connRights (asks uses : Fin nSockets → Prop) (changes : (Slot → Slot) → Prop)
    (files : Prop) : Rights where
  writes a v := ∀ i, a = sockRegGet regCR i →
    (v = cmdListen ∨ v = cmdConnect → asks i) ∧ (Uses v → uses i)
  changes _ := changes
  files := files
  errno := True
  stops _ := True

section Rights

variable {asks uses : Fin nSockets → Prop} {changes : (Slot → Slot) → Prop} {files : Prop}
  {k : Fin nSockets}

/-- No socket is asked to wait, and nothing is used. -/
abbrev quietRights : Rights := connRights (fun _ => False) (fun _ => False) (fun _ => False) False

/-- Connections of the socket `k` may be used. -/
abbrev usedRights (k : Fin nSockets) : Rights :=
  connRights (fun _ => False) (· = k) (fun _ => False) False

/-- The socket `k` may be made to wait. -/
abbrev listenedRights (k : Fin nSockets) : Rights :=
  connRights (· = k) (fun _ => False) (fun _ => False) False

/-- The other registers are no commands. -/
theorem connRights_register {r n : ℕ} (hr : 2 ≤ r ∨ r = regMR ∧ n = 1)
    (hn : r + n ≤ socketRegsSize) : (connRights asks uses changes files).Register k r n := by
  intro m v hm i heq
  have hi : i.val < 4 := i.isLt
  have hk : k.val < 4 := k.isLt
  unfold regMR at hr
  unfold sockRegGet s0RegsOffset regCR at heq
  unfold socketRegsSize at *
  omega

/-- A command to a socket. -/
theorem connRights_command {cmd : Byte} (hask : cmd = cmdListen ∨ cmd = cmdConnect → asks k)
    (huse : Uses cmd → uses k) :
    (connRights asks uses changes files).writes (sockRegGet regCR k) cmd := by
  intro i heq
  obtain rfl := sockRegGet_regCR_inj heq
  exact ⟨hask, huse⟩

/-- Receiving is a use. -/
theorem connRights_receives (huse : uses k) : (connRights asks uses changes files).Receives k :=
  ⟨trivial, connRights_register (.inl (by decide)) (by decide),
    connRights_command (fun h => absurd h (by decide)) fun _ => huse⟩

/-- Memory is no register. -/
theorem connRights_transmits (huse : uses k) : (connRights asks uses changes files).Transmits k := by
  refine ⟨trivial, fun a v hlo _ i heq => ?_, connRights_register (.inl (by decide)) (by decide),
    connRights_command (fun h => absurd h (by decide)) fun _ => huse⟩
  have hlt := sockRegGet_lt i (show regCR < socketRegsSize by decide)
  unfold txMemBase at hlo
  omega

/-- Naming the peer is none. -/
theorem connRights_names : (connRights asks uses changes files).Names k :=
  ⟨connRights_register (.inl (by decide)) (by decide),
    connRights_register (.inl (by decide)) (by decide)⟩

/-- The connection of a socket is used by what is received. -/
theorem usedRights_receives : (usedRights k).Receives k := connRights_receives rfl

/-- And by what is sent. -/
theorem usedRights_transmits : (usedRights k).Transmits k := connRights_transmits rfl

/-- Opening a socket neither waits for a connection nor uses one. -/
theorem connRights_open : (connRights asks uses changes files).writes (sockRegGet regCR k) cmdOpen :=
  connRights_command (fun h => absurd h (by decide)) fun h => absurd h (by decide)

/-- The chip never offers more room than a ring has. -/
theorem fits_watched {B : Board χ} {C : Connections χ} (hroom : B.RoomBounded) (P : Rights)
    (buf : List Byte) : Fits (B.watched C) P k buf := by
  refine .inr (.inl fun c n c' h => hroom k c.1 n c'.1 ?_)
  cases h
  rfl

end Rights

section Chip

variable {B : Board χ} {C : Connections χ} (hC : C.Obeys B) (fuel : ℕ) (k : Fin nSockets)
  {α : Type} {x : Comp (χ × List ConnUse) Stop α}

include hC

/-! ### What the rights say -/

/-- What the rights allow is all that happens to the connections. -/
theorem served_of_chipCode {asks uses : Fin nSockets → Prop} {changes : (Slot → Slot) → Prop}
    {files : Prop} (h : ChipCode (B.watched C) (connRights asks uses changes files) x) :
    Along (Served C asks uses) x := by
  refine h.along fun _ _ hstep c v c' heq => ?_
  have hread : ∀ c1, (∀ i, C.Rests i c.1 c1) → Served C asks uses c (c1, c.2) := fun c1 h1 =>
    ⟨fun i _ => h1 i, fun i => (h1 i).grows, [], rfl, fun _ hu => absurd hu List.not_mem_nil⟩
  cases hstep with
  | read reg =>
      cases heq
      exact hread _ fun i => hC.read _ _ i
  | @write reg val hw =>
      cases heq
      refine ⟨fun i hi => hC.write _ _ _ i fun hasks => hi ((hw i hasks.1).1 hasks.2),
        fun i => hC.grows _ _ _ i, C.uses (reg % 2 ^ 16) val c.1, rfl, fun u hu => ?_⟩
      obtain ⟨hreg, -, hconn⟩ := mem_uses hu
      have hval : Uses val := by
        by_contra hval
        rw [uses_of_not_uses hval] at hu
        exact List.not_mem_nil hu
      refine ⟨(hw _ hreg).2 hval, hconn.ge, ?_⟩
      rw [hconn]
      exact hC.grows _ _ _ _
  | clock =>
      cases heq
      exact hread _ fun i => hC.clock _ i
  | stop _ => cases heq

/-- What asks for nothing and uses nothing. -/
theorem quiet_of_chipCode (h : ChipCode (B.watched C) quietRights x) : Along (Quiet C) x :=
  (served_of_chipCode hC h).mono fun _ _ h' => h'.quiet

/-- What uses connections of one socket. -/
theorem used_of_chipCode (h : ChipCode (B.watched C) (usedRights k) x) : Along (Used C k) x :=
  (served_of_chipCode hC h).mono fun _ _ h' => h'.used

/-- What makes one socket wait. -/
theorem listened_of_chipCode (h : ChipCode (B.watched C) (listenedRights k) x) :
    Along (Listened C k) x := (served_of_chipCode hC h).mono fun _ _ h' => h'.listened

/-! ### Commands -/

/-- A register is waited for. -/
theorem along_readUntil (r : ℕ) (i : Fin nSockets) (stop : Byte → Bool) :
    Along (Quiet C) (readUntil (B.watched C) fuel r i stop) :=
  quiet_of_chipCode hC (made_readUntil fuel trivial r i stop)

/-- The other sockets do not notice a command that uses no connection. -/
theorem along_command_listened {cmd : Byte} (hact : ¬ Uses cmd) :
    Along (Listened C k) (command (B.watched C) fuel k cmd) :=
  listened_of_chipCode hC k (made_command fuel trivial
    (connRights_command (fun _ => rfl) fun huse => hact huse))

/-- A socket that is read as `ESTABLISHED` does not wait. -/
theorem post_readSR (c : χ × List ConnUse) :
    Post (readSockReg (B.watched C) regSR k) (fun sr c' => Quiet C c c' ∧
      (sr = sockEstablished → C.waits c'.1 k = false)) c := by
  intro sr c' h
  refine ⟨quiet_of_chipCode hC (.step (.read _)) c sr c' h, fun hsr => ?_⟩
  have hmod := sockRegGet_mod k (show regSR < socketRegsSize by decide)
  cases h
  rw [hmod] at hsr ⊢
  exact hC.served c.1 k hsr

/-- `DISCON` disconnects what is established when it is given. -/
theorem post_discon (c : χ × List ConnUse) :
    Post (command (B.watched C) fuel k cmdDiscon) (fun _ c' => (∀ i, C.Rests i c.1 c'.1) ∧
      ∃ us, c'.2 = us ++ c.2 ∧ ∀ u ∈ us, u.socket = k ∧ u.conn = C.count c.1 k ∧
        C.established c.1 k = true) c := by
  have hmod := sockRegGet_mod k (show regCR < socketRegsSize by decide)
  unfold command
  rw [post_bind]
  intro _ c1 h
  cases h
  have hrests : ∀ i, C.Rests i c.1 (B.write (sockRegGet regCR k % 2 ^ 16) cmdDiscon c.1) :=
    fun i => hC.write _ _ _ i fun hasks => hasks.2.elim (by decide) (by decide)
  rw [post_bind]
  refine (along_readUntil hC fuel _ _ _ _).mono fun _ c2 h2 => post_pure.2 ?_
  refine ⟨fun i => (hrests i).trans (h2.rests i), _, h2.log, fun u hu => ?_⟩
  obtain ⟨hreg, hact, hconn⟩ := mem_uses hu
  rw [hmod] at hreg
  have hk : k = u.socket := sockRegGet_regCR_inj hreg
  subst hk
  refine ⟨rfl, hconn, ?_⟩
  unfold Connections.actOf at hact
  rw [if_neg (by decide), if_neg (by decide)] at hact
  split_ifs at hact with hest
  exact hest.2

end Chip

end W5100

end Nucleo
