/-
# What a call reads

`Board.logged` is a board with a list beside it, which no call sees: the bytes that are read
from the chip and the readings of the clock, in order.  What a call returns is then stated by
what it has read, and not by what the code makes of it.

The loops of `send` and `sendto` look at three things of a socket (`Look`): the room in its
transmit ring, its status and the clock.  `looks` picks them out of the list.
-/
import Nucleo.W5100Meter

namespace Nucleo

namespace W5100

open Comp

/-! ## Readings -/

/-- A byte read from the chip, or a reading of the clock. -/
inductive Reading
  | reg (addr : ℕ) (val : Byte)
  | clock (t : Timespec)
  deriving DecidableEq, Repr

/-- The board with a list of what is read from it. -/
def Board.logged {χ : Type} (B : Board χ) : Board (χ × List Reading) where
  read reg c := ((B.read reg c.1).1, ((B.read reg c.1).2, c.2 ++ [.reg reg (B.read reg c.1).1]))
  write reg val c := (B.write reg val c.1, c.2)
  clockGettime c :=
    ((B.clockGettime c.1).1, ((B.clockGettime c.1).2, c.2 ++ [.clock (B.clockGettime c.1).1]))
  usartReady c := ((B.usartReady c.1).1, ((B.usartReady c.1).2, c.2))
  usartRecv c := ((B.usartRecv c.1).1, ((B.usartRecv c.1).2, c.2))
  usartSend b c := (B.usartSend b c.1, c.2)

/-- The list, beside the count of `Board.metered`. -/
abbrev log {χ : Type} (c : (χ × List Reading) × ℕ) : List Reading := c.1.2

/-- What has been read between two states. -/
def readings {χ φ : Type} (w w' : World ((χ × List Reading) × ℕ) φ) : List Reading :=
  (log w'.chip).drop (log w.chip).length

/-- The readings of a call are what it appends to the log. -/
theorem readings_of_append {χ φ : Type} {w w' : World ((χ × List Reading) × ℕ) φ}
    {l : List Reading} (h : log w'.chip = log w.chip ++ l) : readings w w' = l := by
  unfold readings
  rw [h, List.drop_left]

/-- The room that the two bytes of `TX_FSR` say there is. -/
def roomOf (hi lo : Byte) : ℕ := (htons (word16 hi lo)).toNat

/-- What the loops of `send` and `sendto` look at. -/
inductive Look
  | room (n : ℕ)
  | status (sr : Byte)
  | clock (t : Timespec)
  deriving DecidableEq, Repr

/-- The looks at the socket `k`.  The room is read in two bytes, the first of which is held
until the second one is read. -/
def looks (k : Fin nSockets) : Byte → List Reading → List Look
  | _, [] => []
  | hi, .clock t :: l => .clock t :: looks k hi l
  | hi, .reg a v :: l =>
      if a = sockRegGet regTXFSR k then looks k v l
      else if a = sockRegGet regTXFSR k + 1 then .room (roomOf hi v) :: looks k 0 l
      else if a = sockRegGet regSR k then .status v :: looks k hi l
      else looks k hi l

/-- The first room that is seen. -/
def firstRoom : List Look → Option ℕ
  | [] => none
  | .room n :: _ => some n
  | .status _ :: l => firstRoom l
  | .clock _ :: l => firstRoom l

/-- No byte of `TX_FSR`. -/
def Reading.NoRoom (k : Fin nSockets) : Reading → Prop
  | .reg a _ => a ≠ sockRegGet regTXFSR k ∧ a ≠ sockRegGet regTXFSR k + 1
  | .clock _ => True

/-- Nothing that is looked at. -/
def Reading.Quiet (k : Fin nSockets) : Reading → Prop
  | .reg a _ => a ≠ sockRegGet regTXFSR k ∧ a ≠ sockRegGet regTXFSR k + 1 ∧ a ≠ sockRegGet regSR k
  | .clock _ => False

section Looks

variable {k : Fin nSockets} {hi : Byte} {l rest : List Reading}

/-! ### What one reading adds -/

/-- What a reading of a register adds to the looks. -/
theorem looks_reg (a : ℕ) (v : Byte) : looks k hi (.reg a v :: rest) =
    if a = sockRegGet regTXFSR k then looks k v rest
    else if a = sockRegGet regTXFSR k + 1 then .room (roomOf hi v) :: looks k 0 rest
    else if a = sockRegGet regSR k then .status v :: looks k hi rest
    else looks k hi rest := rfl

/-- A reading of the clock is one of them. -/
theorem looks_clock (t : Timespec) :
    looks k hi (.clock t :: rest) = .clock t :: looks k hi rest := rfl

/-- Readings of other registers are none. -/
theorem looks_quiet (h : ∀ r ∈ l, r.Quiet k) : looks k hi (l ++ rest) = looks k hi rest := by
  induction l with
  | nil => rfl
  | cons r l ih =>
      obtain ⟨hr, hl⟩ := List.forall_mem_cons.1 h
      cases r with
      | clock t => exact absurd hr id
      | reg a v =>
          rw [List.cons_append, looks_reg, if_neg hr.1, if_neg hr.2.1, if_neg hr.2.2]
          exact ih hl

/-- The two bytes of the free size are one look. -/
theorem looks_room (v v' : Byte) :
    looks k hi (.reg (sockRegGet regTXFSR k) v :: .reg (sockRegGet regTXFSR k + 1) v' :: rest) =
      .room (roomOf v v') :: looks k 0 rest := by
  rw [looks_reg, if_pos rfl, looks_reg, if_neg (Nat.succ_ne_self _), if_pos rfl]

/-- A reading of the status is one. -/
theorem looks_status (v : Byte) :
    looks k hi (.reg (sockRegGet regSR k) v :: rest) = .status v :: looks k hi rest := by
  have hfsr : sockRegGet regSR k ≠ sockRegGet regTXFSR k ∧
      sockRegGet regSR k ≠ sockRegGet regTXFSR k + 1 := by
    unfold sockRegGet regSR regTXFSR
    omega
  rw [looks_reg, if_neg hfsr.1, if_neg hfsr.2, if_pos rfl]

/-- What is read before the first room. -/
theorem firstRoom_looks (h : ∀ r ∈ l, r.NoRoom k) :
    firstRoom (looks k hi (l ++ rest)) = firstRoom (looks k hi rest) := by
  induction l with
  | nil => rfl
  | cons r l ih =>
      obtain ⟨hr, hl⟩ := List.forall_mem_cons.1 h
      cases r with
      | clock t => exact ih hl
      | reg a v =>
          rw [List.cons_append, looks_reg, if_neg hr.1, if_neg hr.2]
          split_ifs
          · exact ih hl
          · exact ih hl

end Looks

/-! ## What the list grows by -/

section Grows

variable {χ : Type}

/-- Readings that satisfy `p` have been added. -/
def Grows (p : Reading → Prop) (c c' : (χ × List Reading) × ℕ) : Prop :=
  ∃ l, log c' = log c ++ l ∧ ∀ r ∈ l, p r

variable {p : Reading → Prop}

theorem Grows.refl (c : (χ × List Reading) × ℕ) : Grows p c c :=
  ⟨[], (List.append_nil _).symm, fun _ h => absurd h List.not_mem_nil⟩

theorem Grows.trans {c c' c'' : (χ × List Reading) × ℕ} (h : Grows p c c') (h' : Grows p c' c'') :
    Grows p c c'' := by
  obtain ⟨l, hlog, hl⟩ := h
  obtain ⟨l', hlog', hl'⟩ := h'
  refine ⟨l ++ l', by rw [hlog', hlog, List.append_assoc], fun r hr => ?_⟩
  exact (List.mem_append.1 hr).elim (hl r) (hl' r)

instance : Std.Refl (Grows (χ := χ) p) := ⟨Grows.refl⟩
instance : IsTrans _ (Grows (χ := χ) p) := ⟨fun _ _ _ => Grows.trans⟩

variable (B : Board χ) (fuel : ℕ)

/-- **A byte that is read is logged**. -/
theorem readByte_logged (reg : ℕ) (c : (χ × List Reading) × ℕ) :
    Post (readByte B.logged.metered reg)
      (fun v c' => log c' = log c ++ [.reg (reg % 2 ^ 16) v]) c := by
  intro v c' heq
  cases heq
  rfl

theorem clockGettime_logged (c : (χ × List Reading) × ℕ) :
    Post (clockGettime B.logged.metered) (fun t c' => log c' = log c ++ [.clock t]) c := by
  intro v c' heq
  cases heq
  rfl

/-- Reading a byte adds one reading. -/
theorem grows_readByte {reg : ℕ} (h : ∀ v, p (.reg (reg % 2 ^ 16) v)) :
    Along (Grows p) (readByte B.logged.metered reg) := by
  intro c
  refine (readByte_logged B reg c).mono fun v c' hlog => ⟨_, hlog, fun r hr => ?_⟩
  rw [List.mem_singleton.1 hr]
  exact h v

/-- Writing a byte adds none. -/
theorem grows_writeByte (reg : ℕ) (val : Byte) :
    Along (Grows p) (writeByte B.logged.metered reg val) := by
  intro c v c' heq
  cases heq
  exact .refl _

theorem grows_writeMem (addr : ℕ) (l : List Byte) :
    Along (Grows p) (writeMem B.logged.metered addr l) := by
  induction l generalizing addr with
  | nil => exact along_pure _
  | cons b l ih => exact (grows_writeByte B addr b).bind fun _ => ih _

/-- A register of two bytes. -/
theorem readSockReg16_logged {r : ℕ} (hr : r + 1 < socketRegsSize) (k : Fin nSockets)
    (c : (χ × List Reading) × ℕ) :
    Post (readSockReg16 B.logged.metered r k) (fun v c' => ∃ b b', v = word16 b b' ∧
      log c' = log c ++ [.reg (sockRegGet r k) b, .reg (sockRegGet r k + 1) b']) c := by
  have hlt := sockRegGet_lt k hr
  have hmod : (sockRegGet r k + 1) % 2 ^ 16 = sockRegGet r k + 1 := by
    unfold sockRegGet at hlt ⊢
    omega
  unfold readSockReg16 readMem readMem readMem
  rw [post_bind, post_bind]
  refine (readByte_logged B _ c).mono fun b c1 h1 => ?_
  rw [post_bind, post_bind]
  refine (readByte_logged B _ c1).mono fun b' c2 h2 => ?_
  rw [post_bind, post_pure, post_pure, post_pure, post_pure]
  refine ⟨b, b', rfl, ?_⟩
  rw [h2, h1, sockRegGet_mod k (by omega), hmod, List.append_assoc]
  rfl

/-- A wide register adds its two bytes. -/
theorem grows_readSockReg16 {r : ℕ} (hr : r + 1 < socketRegsSize) (k : Fin nSockets)
    (h : ∀ v, p (.reg (sockRegGet r k) v) ∧ p (.reg (sockRegGet r k + 1) v)) :
    Along (Grows p) (readSockReg16 B.logged.metered r k) := by
  intro c
  refine (readSockReg16_logged B hr k c).mono fun v c' ⟨b, b', _, hlog⟩ => ⟨_, hlog, ?_⟩
  intro r' hr'
  rcases List.mem_pair.1 hr' with rfl | rfl
  · exact (h b).1
  · exact (h b').2

/-- A wait adds readings of its register. -/
theorem grows_readUntil {r : ℕ} (hr : r < socketRegsSize) (k : Fin nSockets) (stop : Byte → Bool)
    (h : ∀ v, p (.reg (sockRegGet r k) v)) :
    Along (Grows p) (readUntil B.logged.metered fuel r k stop) := by
  unfold readUntil
  apply Along.iter
  intro _
  refine (grows_readByte B (fun v => ?_)).bind fun v => along_pure _
  rw [sockRegGet_mod k hr]
  exact h v

/-- A command adds readings of the command register. -/
theorem grows_command (k : Fin nSockets) (cmd : Byte) (h : ∀ v, p (.reg (sockRegGet regCR k) v)) :
    Along (Grows p) (command B.logged.metered fuel k cmd) :=
  (grows_writeByte B _ _).bind fun _ =>
    (grows_readUntil B fuel (by decide) k _ h).bind fun _ => along_pure _

/-- A read pointer of the ring and a command are nothing that is looked at. -/
theorem quiet_reg {k : Fin nSockets} {a : ℕ} (v : Byte) (ha : a = sockRegGet regCR k ∨
    a = sockRegGet regTXWR k ∨ a = sockRegGet regTXWR k + 1) : Reading.Quiet k (.reg a v) := by
  unfold sockRegGet regCR regTXWR at ha
  unfold Reading.Quiet sockRegGet regTXFSR regSR
  omega

/-- The registers below `TX_FSR`, of whichever socket. -/
theorem noRoom_reg {a r : ℕ} (hr : r < regTXFSR) {j : Fin nSockets} (ha : a = sockRegGet r j)
    (k : Fin nSockets) (v : Byte) : Reading.NoRoom k (.reg a v) := by
  unfold regTXFSR at hr
  unfold sockRegGet socketRegsSize at ha
  unfold Reading.NoRoom sockRegGet socketRegsSize regTXFSR
  omega

/-- Writing the buffer reads no register that counts. -/
theorem quiet_writeBufSure (k : Fin nSockets) (buf : List Byte) (q : BitVec 16) :
    Along (Grows (Reading.Quiet k)) (writeBufSure B.logged.metered k buf q) := by
  rw [writeBufSure_eq]
  exact (grows_writeMem B _ _).bind fun _ => (grows_writeMem B _ _).bind fun _ => along_pure _

/-! ### The free size -/

/-- **The free size is read once**. -/
theorem writeBufLen_logged (k : Fin nSockets) (c : (χ × List Reading) × ℕ) :
    Post (writeBufLen B.logged.metered k) (fun nfree c' => ∃ hi lo, nfree.toNat = roomOf hi lo ∧
      log c' = log c ++
        [.reg (sockRegGet regTXFSR k) hi, .reg (sockRegGet regTXFSR k + 1) lo]) c := by
  unfold writeBufLen
  rw [post_bind]
  refine (readSockReg16_logged B (by decide) k c).mono ?_
  rintro _ c1 ⟨hi, lo, rfl, h1⟩
  exact post_pure.2 ⟨hi, lo, rfl, h1⟩

/-- The list beside it changes nothing of what the board offers. -/
theorem roomBounded_logged {B : Board χ} (hroom : B.RoomBounded) : B.logged.RoomBounded := by
  intro k c n c' h
  refine hroom k c.1 n c'.1 ?_
  cases h
  rfl

/-- **What `write_buf` reads**: the room first, which decides how much it writes, and then
nothing that is looked at. -/
theorem writeBuf_logged (k : Fin nSockets) (buf : List Byte) (c : (χ × List Reading) × ℕ) :
    Post (writeBuf B.logged.metered fuel k buf) (fun n c' => ∃ hi lo l,
      log c' = log c ++
        (.reg (sockRegGet regTXFSR k) hi :: .reg (sockRegGet regTXFSR k + 1) lo :: l) ∧
      (∀ r ∈ l, r.Quiet k) ∧ n = min buf.length (roomOf hi lo)) c := by
  unfold writeBuf
  rw [post_bind]
  refine (writeBufLen_logged B k c).mono ?_
  rintro nfree c1 ⟨hi, lo, hnfree, h1⟩
  have hlt : roomOf hi lo < 2 ^ 16 := BitVec.isLt _
  rw [hnfree, post_ite]
  constructor
  · intro _
    dsimp only
    generalize hlen : (if buf.length > roomOf hi lo then roomOf hi lo else buf.length) = len
    have hmin : len = min buf.length (roomOf hi lo) := by
      rw [← hlen]
      split_ifs <;> omega
    -- the pointer is read behind the room, and it is none of the registers looked at
    have hpstart : Along (Grows (Reading.Quiet k)) (writeBufPstart B.logged.metered k) :=
      (grows_readSockReg16 B (by decide) k fun v =>
        ⟨quiet_reg v (.inr (.inl rfl)), quiet_reg v (.inr (.inr rfl))⟩).bind fun _ => along_pure _
    have hsend : ∀ q, Along (Grows (Reading.Quiet k)) (writeBufSend B.logged.metered fuel k q) :=
      fun q => (grows_writeMem B _ _).bind fun _ =>
        grows_command B fuel k cmdSend fun v => quiet_reg v (.inl rfl)
    rw [post_bind]
    refine (hpstart c1).mono fun q c2 h2 => ?_
    rw [post_bind]
    refine (quiet_writeBufSure B k _ q c2).mono fun q' c3 h3 => ?_
    rw [post_bind]
    refine (hsend q' c3).mono fun _ c4 h4 => post_pure.2 ?_
    obtain ⟨l, hlog, hl⟩ := h2.trans (h3.trans h4)
    refine ⟨hi, lo, l, by rw [hlog, h1, List.append_assoc]; rfl, hl, ?_⟩
    rw [Nat.mod_eq_of_lt (by omega), hmin]
  · intro hzero
    refine post_pure.2 ⟨hi, lo, [], h1, fun _ h => absurd h List.not_mem_nil, by omega⟩

end Grows

/-! ## What the functions of the sockets read -/

section Sockets

variable {χ φ : Type} {p : Reading → Prop}

/-- Readings that satisfy `p` have been added to the list beside the chip. -/
def GrowsOn (p : Reading → Prop) (w w' : World ((χ × List Reading) × ℕ) φ) : Prop :=
  Grows p w.chip w'.chip

instance : Std.Refl (GrowsOn (χ := χ) (φ := φ) p) := ⟨fun w => Grows.refl w.chip⟩
instance : IsTrans _ (GrowsOn (χ := χ) (φ := φ) p) := ⟨fun _ _ _ => Grows.trans⟩

variable (B : Board χ) (fuel : ℕ)

/-- What the chip logs the system does. -/
theorem growsOn_onChip {α : Type} {x : Comp ((χ × List Reading) × ℕ) Stop α}
    (hx : Along (Grows p) x) : Along (GrowsOn (φ := φ) p) (onChip x) := by
  intro w
  rw [post_onChip]
  exact hx w.chip

/-- What does not touch the chip. -/
theorem growsOn_of_keeps {α : Type} {x : Sys ((χ × List Reading) × ℕ) φ α}
    (hx : Keeps World.chip x) : Along (GrowsOn p) x := by
  intro w
  refine (hx w).mono fun _ w' hchip => ?_
  unfold GrowsOn
  rw [hchip]
  exact .refl _

/-- Looking at a socket reads nothing. -/
theorem growsOn_getSlot (i : Fin nSockets) :
    Along (GrowsOn (χ := χ) (φ := φ) p) (getSlot i) :=
  growsOn_of_keeps (keeps_get.bind fun _ => keeps_pure _)

theorem growsOn_modifySlot (i : Fin nSockets) (f : Slot → Slot) :
    Along (GrowsOn (χ := χ) (φ := φ) p) (modifySlot i f) :=
  growsOn_of_keeps (keeps_modify fun _ => rfl)

/-- Asking for a port reads the ports. -/
theorem growsOn_portUsed (k : Fin nSockets) (port : InPort) (l : List (Fin nSockets)) :
    Along (GrowsOn (φ := φ) (Reading.NoRoom k)) (portUsed B.logged.metered port l) := by
  induction l with
  | nil => exact along_pure _
  | cons i l ih =>
      refine (growsOn_getSlot i).bind fun s => Along.ite
        ((growsOn_onChip (grows_readSockReg16 B (by decide) i fun v => ?_)).bind fun q =>
          (along_pure _).ite ih) ih
      have hlo : sockRegGet regPORT i + 1 = sockRegGet (regPORT + 1) i := by
        unfold sockRegGet
        omega
      exact ⟨noRoom_reg (by decide) rfl k v, noRoom_reg (by decide) hlo k v⟩

/-- `check_bind_udp` does not read the room. -/
theorem growsOn_checkBindUdp (k i : Fin nSockets) :
    Along (GrowsOn (φ := φ) (Reading.NoRoom k)) (checkBindUdp B.logged.metered fuel i) := by
  have hport : Along (GrowsOn (φ := φ) (Reading.NoRoom k))
      (getAvailPort B.logged.metered fuel) := by
    unfold getAvailPort
    apply Along.iter
    intro port
    exact (growsOn_portUsed B k port _).bind fun used => (along_pure _).ite (along_pure _)
  refine (growsOn_getSlot i).bind fun _ => Along.ite (hport.bind fun port => ?_) (along_pure _)
  exact (growsOn_getSlot i).bind fun s =>
    (growsOn_onChip (grows_writeMem B _ _)).bind fun _ =>
    (growsOn_onChip (grows_command B fuel _ _ fun v => noRoom_reg (by decide) rfl k v)).bind fun _ =>
    (growsOn_onChip (grows_readUntil B fuel (by decide) _ _ fun v =>
      noRoom_reg (by decide) rfl k v)).bind fun _ => growsOn_modifySlot i _

/-! ### The clock and the status -/

/-- `timeout_init` reads the clock, if there is a time-out to wait for. -/
theorem timeoutUnless_logged (nonblock : Bool) (timeout : Timespec)
    (w : World ((χ × List Reading) × ℕ) φ) :
    Post (timeoutUnless B.logged.metered nonblock timeout) (fun tom w' =>
      w'.sockets = w.sockets ∧
      if nonblock = true ∨ (timespecDiff timespecZero timeout).2 = 0 then
        tom = none ∧ log w'.chip = log w.chip
      else ∃ now, tom = some (timespecAdd now timeout) ∧
        log w'.chip = log w.chip ++ [.clock now]) w := by
  unfold timeoutUnless timeoutInit
  by_cases hnb : nonblock = true
  · rw [if_pos hnb, post_pure, if_pos (.inl hnb)]
    exact ⟨rfl, rfl, rfl⟩
  rw [if_neg hnb]
  by_cases hzero : (timespecDiff timespecZero timeout).2 = 0
  · rw [if_neg (not_not.2 hzero), post_pure, if_pos (.inr hzero)]
    exact ⟨rfl, rfl, rfl⟩
  · rw [if_pos hzero, post_bind, post_onChip]
    refine (clockGettime_logged B w.chip).mono fun now c hlog => post_pure.2 ⟨rfl, ?_⟩
    rw [if_neg (not_or.2 ⟨hnb, hzero⟩)]
    exact ⟨now, rfl, hlog⟩

/-- `timeout_ended` reads the clock, if there is a deadline. -/
theorem timeoutEnded_logged (tom : TimeoutManager) (w : World ((χ × List Reading) × ℕ) φ) :
    Post (timeoutEnded B.logged.metered tom) (fun ended w' => w'.sockets = w.sockets ∧
      match tom with
      | none => ended = false ∧ log w'.chip = log w.chip
      | some tend => ∃ now, log w'.chip = log w.chip ++ [.clock now] ∧
          ended = decide ((timespecDiff tend now).2 < 0)) w := by
  cases tom with
  | none => exact post_pure.2 ⟨rfl, rfl, rfl⟩
  | some tend =>
      show Post (onChip (clockGettime B.logged.metered) >>= _) _ w
      rw [post_bind, post_onChip]
      refine (clockGettime_logged B w.chip).mono fun now c hlog => ?_
      rw [post_ite]
      constructor
      · intro hover
        exact post_fail.2 ⟨rfl, now, hlog, (decide_eq_true hover).symm⟩
      · intro hover
        exact post_pure.2 ⟨rfl, now, hlog, (decide_eq_false hover).symm⟩

/-- `manage_disconnect` reads the status, which says whether the connection has ended. -/
theorem manageDisconnect_logged (i : Fin nSockets) (w : World ((χ × List Reading) × ℕ) φ) :
    Post (manageDisconnect B.logged.metered fuel i) (fun gone w' => ∃ sr l,
      log w'.chip = log w.chip ++ (.reg (sockRegGet regSR (w.sockets i).isocket) sr :: l) ∧
      if sr = sockEstablished then gone = false ∧ l = [] ∧ w'.sockets = w.sockets
      else gone = true) w := by
  unfold manageDisconnect
  rw [post_bind, post_getSlot, post_bind, post_onChip]
  refine (readByte_logged B _ w.chip).mono fun sr c1 h1 => ?_
  rw [sockRegGet_mod _ (by decide)] at h1
  rw [post_ite]
  constructor
  · intro hgone
    have hcommand : ∀ k cmd, Along (GrowsOn (φ := φ) fun _ => True)
        (onChip (command B.logged.metered fuel k cmd)) := fun k cmd =>
      growsOn_onChip (grows_command B fuel k cmd fun _ => trivial)
    have hwait : ∀ k stop, Along (GrowsOn (φ := φ) fun _ => True)
        (onChip (readUntil B.logged.metered fuel regSR k stop)) := fun k stop =>
      growsOn_onChip (grows_readUntil B fuel (by decide) k stop fun _ => trivial)
    rw [post_bind, post_setErrno, post_bind]
    refine (hcommand _ _ _).mono fun _ w2 h2 => ?_
    rw [post_bind]
    refine (hwait _ _ _).mono fun _ w3 h3 => ?_
    rw [post_bind, post_getSlot]
    -- listening again or not, more is read, and the answer is yes
    refine (show Post _ (fun gone w4 => GrowsOn (fun _ => True) w3 w4 ∧ gone = true) w3 from
      post_ite.2 ⟨fun _ => ?_, fun _ => ?_⟩).mono ?_
    · rw [post_bind]
      exact (((hcommand _ _).bind fun _ => (hcommand _ _).bind fun _ => (hwait _ _).bind fun _ =>
        growsOn_modifySlot i _) w3).mono fun _ w4 h4 => post_pure.2 ⟨h4, rfl⟩
    · rw [post_bind]
      exact (growsOn_modifySlot i _ w3).mono fun _ w4 h4 => post_pure.2 ⟨h4, rfl⟩
    rintro gone w4 ⟨h4, rfl⟩
    obtain ⟨l, hlog, -⟩ := Grows.trans h2 (Grows.trans h3 h4)
    refine ⟨sr, l, ?_, by rw [if_neg hgone]⟩
    rw [hlog, show log ((w.setChip c1).setErrno _).chip = log c1 from rfl, h1, List.append_assoc]
    rfl
  · intro hhere
    refine post_pure.2 ⟨sr, [], h1, ?_⟩
    rw [if_pos (not_not.1 hhere)]
    exact ⟨rfl, rfl, rfl⟩

end Sockets

end W5100

end Nucleo
