/-
# Slots and descriptors own each other

A slot points to the descriptors that use it, and a descriptor of socket type points to
its slot.  `Owns` is the invariant that ties the two tables together; it is kept by every
socket call, except when a slot that was put back to `LISTENING` by `manage_disconnect`
still holds the descriptor of the connection that has ended.  An `accept` on such a slot
overwrites the pointer to that descriptor, and a `close` of its listening descriptor drops
it (`Strands`).
-/
import Nucleo.Lib.Ownership
import Nucleo.W5100Effects

namespace Nucleo

namespace W5100

open Comp Ownership

/-! ## Calls and runs -/

/-- A call on the sockets. -/
inductive SocketCall
  | socket (domain : Family) (type : SockType) (protocol : ℤ)
  | bind (fd : ℤ) (addr : SockaddrIn)
  | connect (fd : ℤ) (addr : SockaddrIn)
  | listen (fd : ℤ)
  | accept (fd : ℤ) (wantAddr : Bool)
  | send (fd : ℤ) (buf : List Byte)
  | recv (fd : ℤ) (len : ℕ)
  | close (fd : ℤ)
  deriving DecidableEq, Repr

section Calls

variable {χ κ δ ψ : Type} (B : Board χ) (L : Fat.FatLib κ δ ψ)

/-- The call with the given patience: the value it returns. -/
def SocketCall.exec : ℕ × SocketCall → Fat.FatSys χ κ δ ψ ℤ
  | (_, .socket domain type protocol) => W5100.socket B domain type protocol
  | (fuel, .bind fd addr) => W5100.bind B fuel fd addr
  | (fuel, .connect fd addr) => W5100.connect B fuel fd addr
  | (fuel, .listen fd) => W5100.listen B fuel fd
  | (fuel, .accept fd wantAddr) => do pure (← W5100.accept B fuel fd wantAddr).1
  | (fuel, .send fd buf) => W5100.send B fuel fd buf
  | (fuel, .recv fd len) => do pure (← W5100.recv B fuel fd len).ret
  | (fuel, .close fd) => sysClose B L fuel fd

/-- The call among all calls. -/
def SocketCall.toNet : SocketCall → NetCall χ
  | .socket domain type protocol => .socket domain type protocol
  | .bind fd addr => .bind fd addr
  | .connect fd addr => .connect fd addr
  | .listen fd => .listen fd
  | .accept fd wantAddr => .accept fd wantAddr
  | .send fd buf => .send fd buf
  | .recv fd len => .recv fd len
  | .close fd => .close fd

theorem SocketCall.exec_eq (call : ℕ × SocketCall) :
    SocketCall.exec B L call = NetCall.exec B L (call.1, call.2.toNet) := by
  obtain ⟨fuel, call⟩ := call
  cases call <;> rfl

/-! ## What ownership means -/

/-- The slot is free. -/
def Slot.IsFree (s : Slot) : Prop := s.fd = socketFreeFd ∧ s.state = .none

/-- An allocated descriptor of socket type. -/
def IsSocket (f : Fd) : Prop := f.isallocated = true ∧ f.stat.fileType = .sock

/-- Slots and descriptors own each other, and `close` can release every socket. -/
structure OwnEachOther (w : World χ (Fat.FatFs κ δ ψ)) : Prop where
  owned : ∀ d, IsSocket (w.files d) →
    ∃ i, ((w.sockets i).Points d ∧ (w.files d).opaquePtr = .slot i) ∧
      ∀ j, (w.sockets j).Points d → j = i
  allocated : ∀ i d, (w.sockets i).Points d → (w.files d).isallocated = true
  free_iff : ∀ i, (w.sockets i).IsFree ↔
    (w.sockets i).fdData = none ∧ (w.sockets i).connectionData = none
  released : ∀ d, IsSocket (w.files d) → ∀ fuel r w',
    sysClose B L fuel (d.val : ℤ) w = .ok (r, w') →
    r = 0 ∧ (w'.files d).isallocated = false

/-- A slot put back to `LISTENING` that still holds the descriptor of a connection. -/
def Slot.Stranded (s : Slot) : Prop := s.state = .listening ∧ s.connectionData ≠ none

/-- A call that would lose the descriptor of such a slot: `accept`, or `close` of the
listening descriptor. -/
def Strands {φ : Type} (w : World χ φ) : SocketCall → Prop
  | .accept fd _ => ∃ (d : Fin openMax) (i : Fin nSockets), fd = (d.val : ℤ) ∧
      (w.files d).opaquePtr = .slot i ∧ (w.sockets i).Stranded
  | .close fd => ∃ (d : Fin openMax) (i : Fin nSockets), fd = (d.val : ℤ) ∧
      (w.sockets i).fdData = some d ∧ (w.sockets i).Stranded
  | _ => False

end Calls

/-! ## The invariant -/

/-- The slot that a pointer of a descriptor points to. -/
def slotOf : Opaque → Option (Fin nSockets)
  | .slot i => some i
  | _ => none

theorem slotOf_eq_some {p : Opaque} {i : Fin nSockets} : slotOf p = some i ↔ p = .slot i := by
  cases p <;> simp [slotOf]

/-- What holds of a slot by itself. -/
structure SlotOk (i : Fin nSockets) (s : Slot) : Prop where
  free : s.fd = socketFreeFd → s.state = .none ∧ s.fdData = none ∧ s.connectionData = none
  used : s.fdData = none → s.connectionData = none → s.fd = socketFreeFd
  shared : s.fdData ≠ none → s.connectionData ≠ none → s.state = .accepted ∨ s.state = .listening
  accepted : s.state = .accepted → s.connectionData ≠ none
  isocket : s.fd ≠ socketFreeFd → s.isocket = i
  distinct : ∀ d, s.fdData = some d → s.connectionData ≠ some d

/-- What holds of an allocated descriptor by itself. -/
structure FdOk (d : Fin openMax) (f : Fd) : Prop where
  isopen : f.isopen = true
  fd : f.fd = (d.val : ℤ)
  sock : f.stat.fileType = .sock
  close : f.close = some .w5100

/-- The invariant of the two tables. -/
structure Owns (files : Fin openMax → Fd) (sockets : Fin nSockets → Slot) : Prop where
  slots : ∀ i, SlotOk i (sockets i)
  fds : ∀ d, (files d).isallocated = true → FdOk d (files d)
  opened : ∀ d, (files d).isopen = true → (files d).isallocated = true ∨ (files d).close = none
  balanced : Balanced (fun d => (files d).isallocated = true)
    (fun d => slotOf (files d).opaquePtr) (fun i d => (sockets i).Points d)

section Invariant

variable {files : Fin openMax → Fd} {sockets : Fin nSockets → Slot} {i : Fin nSockets}

theorem SlotOk.ne_free {s : Slot} (h : SlotOk i s) (hs : s.state ≠ .none) :
    s.fd ≠ socketFreeFd := fun hfd => hs (h.free hfd).1

/-- In these states a slot has no descriptor of a connection beside its own. -/
theorem SlotOk.not_shared {s : Slot} (h : SlotOk i s) (hacc : s.state ≠ .accepted)
    (hlis : s.state ≠ .listening) (hd : s.fdData ≠ none) : s.connectionData = none := by
  by_contra hc
  exact (h.shared hd hc).elim hacc hlis

/-- A slot that turns goes on holding what it held. -/
theorem SlotOk.turns {s s' : Slot} (h : SlotOk i s) (ht : s.Turns s') : SlotOk i s' := by
  have hst : s'.state = s.state ∨ s'.state ≠ .none ∧ s.state ≠ .none ∧ s'.state ≠ .accepted ∧
      (s'.state = .listening ∨ ¬ (s.fdData ≠ none ∧ s.connectionData ≠ none)) := by
    rcases ht.state with heq | hnext
    · exact .inl heq
    · right
      have hnotShared : s.state ≠ .accepted → s.state ≠ .listening →
          ¬ (s.fdData ≠ none ∧ s.connectionData ≠ none) :=
        fun hacc hlis hd => hd.2 (h.not_shared hacc hlis hd.1)
      generalize s'.state = st at hnext
      cases hnext with
      | bound hst => simp_all
      | connected hst _ => simp_all
      | listening hst _ => simp_all
      | relistening hst _ => simp_all
      | disconnected hst hacc =>
          refine ⟨fun hc => SocketState.noConfusion hc, ?_, fun hc => SocketState.noConfusion hc, ?_⟩
          · rcases hst with hst | hst <;> rw [hst] <;> exact fun hc => SocketState.noConfusion hc
          · right
            rintro ⟨hdata, hconn⟩
            -- a shared slot that is connected is accepted
            rcases h.shared hdata hconn with ha | hl
            · exact hacc ⟨ha, hdata⟩
            · rcases hst with hst | hst <;> rw [hl] at hst <;> exact SocketState.noConfusion hst
  constructor
  · intro hfree
    rw [ht.fd] at hfree
    obtain ⟨hnone, hrest⟩ := h.free hfree
    rw [ht.fdData, ht.connectionData]
    rcases hst with heq | ⟨-, hne, -⟩
    · exact ⟨heq.trans hnone, hrest⟩
    · exact absurd hnone hne
  · rw [ht.fdData, ht.connectionData, ht.fd]
    exact h.used
  · rw [ht.fdData, ht.connectionData]
    intro hdata hconn
    rcases hst with heq | ⟨-, -, -, hl | hn⟩
    · rw [heq]
      exact h.shared hdata hconn
    · exact .inr hl
    · exact absurd ⟨hdata, hconn⟩ hn
  · rw [ht.connectionData]
    intro ha
    rcases hst with heq | ⟨-, -, hne, -⟩
    · exact h.accepted (heq ▸ ha)
    · exact absurd ha hne
  · rw [ht.fd, ht.isocket]
    exact h.isocket
  · rw [ht.fdData, ht.connectionData]
    exact h.distinct

/-! ### Changes of the tables -/

/-- A slot that keeps its pointers. -/
theorem Owns.setSlot (h : Owns files sockets) {s' : Slot} (hok : SlotOk i s')
    (hd : s'.fdData = (sockets i).fdData) (hc : s'.connectionData = (sockets i).connectionData) :
    Owns files (Function.update sockets i s') where
  slots j := by
    by_cases hj : j = i
    · subst hj
      rw [Function.update_self]
      exact hok
    · rw [Function.update_of_ne hj]
      exact h.slots j
  fds := h.fds
  opened := h.opened
  balanced := by
    refine h.balanced.congr (fun _ => Iff.rfl) (fun _ _ => rfl) (fun j d => ?_)
    by_cases hj : j = i
    · subst hj
      rw [Function.update_self]
      unfold Slot.Points
      rw [hd, hc]
    · rw [Function.update_of_ne hj]

/-- An entry whose flags change, or one that no slot points to and that is closed. -/
theorem Owns.setFile (h : Owns files sockets) {d : Fin openMax} {f' : Fd}
    (halloc : f'.isallocated = (files d).isallocated) (hfd : f'.fd = (files d).fd)
    (hsock : f'.stat = (files d).stat) (hclose : f'.close = (files d).close)
    (hptr : f'.opaquePtr = (files d).opaquePtr)
    (hopen : f'.isopen = (files d).isopen ∨ f'.isopen = false ∧ (files d).isallocated = false) :
    Owns (Function.update files d f') sockets where
  slots := h.slots
  fds d' := by
    by_cases hd : d' = d
    · subst hd
      rw [Function.update_self, halloc]
      intro ha
      have hok := h.fds d' ha
      rcases hopen with heq | ⟨-, hfree⟩
      · exact ⟨heq.trans hok.isopen, hfd.trans hok.fd, by rw [hsock]; exact hok.sock,
          hclose.trans hok.close⟩
      · exact absurd (hfree.symm.trans ha) Bool.false_ne_true
    · rw [Function.update_of_ne hd]
      exact h.fds d'
  opened d' := by
    by_cases hd : d' = d
    · subst hd
      rw [Function.update_self, halloc, hclose]
      intro ho
      rcases hopen with heq | ⟨hclosed, -⟩
      · exact h.opened d' (heq.symm.trans ho)
      · exact absurd (hclosed.symm.trans ho) Bool.false_ne_true
    · rw [Function.update_of_ne hd]
      exact h.opened d'
  balanced := by
    refine h.balanced.congr (fun d' => ?_) (fun d' _ => ?_) (fun _ _ => Iff.rfl)
    · by_cases hd : d' = d
      · subst hd
        rw [Function.update_self, halloc]
      · rw [Function.update_of_ne hd]
    · by_cases hd : d' = d
      · subst hd
        rw [Function.update_self, hptr]
      · rw [Function.update_of_ne hd]

/-- A fresh descriptor for the slot. -/
theorem Owns.adopt (h : Owns files sockets) {d : Fin openMax} {f' : Fd} {s' : Slot}
    (hfresh : (files d).isallocated = false) (halloc : f'.isallocated = true) (hf : FdOk d f')
    (hptr : f'.opaquePtr = .slot i) (hok : SlotOk i s')
    (hpoints : ∀ d', s'.Points d' ↔ (sockets i).Points d' ∨ d' = d) :
    Owns (Function.update files d f') (Function.update sockets i s') where
  slots j := by
    by_cases hj : j = i
    · subst hj
      rw [Function.update_self]
      exact hok
    · rw [Function.update_of_ne hj]
      exact h.slots j
  fds d' := by
    by_cases hd : d' = d
    · subst hd
      rw [Function.update_self]
      exact fun _ => hf
    · rw [Function.update_of_ne hd]
      exact h.fds d'
  opened d' := by
    by_cases hd : d' = d
    · subst hd
      rw [Function.update_self]
      exact fun _ => .inl halloc
    · rw [Function.update_of_ne hd]
      exact h.opened d'
  balanced := by
    refine h.balanced.adopt (d := d) (i := i) (by simp [hfresh]) (fun d' => ?_) ?_ (fun d' hd => ?_)
      (fun j d' => ?_)
    · by_cases hd : d' = d
      · subst hd
        simp [halloc]
      · rw [Function.update_of_ne hd]
        simp [hd]
    · rw [Function.update_self]
      exact slotOf_eq_some.2 hptr
    · rw [Function.update_of_ne hd]
    · by_cases hj : j = i
      · subst hj
        rw [Function.update_self, hpoints]
        simp
      · rw [Function.update_of_ne hj]
        simp [hj]

/-- A descriptor given back by the slot. -/
theorem Owns.release (h : Owns files sockets) {d : Fin openMax} {f' : Fd} {s' : Slot}
    (hpoint : (sockets i).Points d) (halloc : f'.isallocated = false)
    (hclosed : f'.isopen = false) (hok : SlotOk i s')
    (hpoints : ∀ d', s'.Points d' ↔ (sockets i).Points d' ∧ d' ≠ d) :
    Owns (Function.update files d f') (Function.update sockets i s') where
  slots j := by
    by_cases hj : j = i
    · subst hj
      rw [Function.update_self]
      exact hok
    · rw [Function.update_of_ne hj]
      exact h.slots j
  fds d' := by
    by_cases hd : d' = d
    · subst hd
      rw [Function.update_self, halloc]
      exact fun hf => absurd hf Bool.false_ne_true
    · rw [Function.update_of_ne hd]
      exact h.fds d'
  opened d' := by
    by_cases hd : d' = d
    · subst hd
      rw [Function.update_self, hclosed]
      exact fun hf => absurd hf Bool.false_ne_true
    · rw [Function.update_of_ne hd]
      exact h.opened d'
  balanced := by
    refine h.balanced.release (d := d) (fun d' => ?_) (fun d' hd => ?_) (fun j d' => ?_)
    · by_cases hd : d' = d
      · subst hd
        simp [halloc]
      · rw [Function.update_of_ne hd]
        simp [hd]
    · rw [Function.update_of_ne hd]
    · by_cases hj : j = i
      · subst hj
        rw [Function.update_self, hpoints]
      · rw [Function.update_of_ne hj]
        constructor
        · intro hp
          refine ⟨hp, ?_⟩
          rintro rfl
          -- the descriptor names one slot only
          have h1 := (h.balanced.sound j d' hp).2
          have h2 := (h.balanced.sound i d' hpoint).2
          rw [h1] at h2
          exact hj (Option.some.inj h2)
        · exact fun hp => hp.1

/-- A slot with a new descriptor for an accepted connection. -/
theorem Owns.accept {files : Fin openMax → Fd} {sockets : Fin nSockets → Slot}
    (h : Owns files sockets) {d : Fin openMax} {f' : Fd}
    (hfresh : (files d).isallocated = false) (halloc : f'.isallocated = true) (hf : FdOk d f')
    (hptr : f'.opaquePtr = .slot i) (hst : (sockets i).state = .listening)
    (hconn : (sockets i).connectionData = none) :
    Owns (Function.update files d f') (Function.update sockets i
      { sockets i with state := .accepted, connectionData := some d }) := by
  have hne : (sockets i).fd ≠ socketFreeFd :=
    (h.slots i).ne_free (by rw [hst]; exact fun hc => SocketState.noConfusion hc)
  refine h.adopt hfresh halloc hf hptr ?_ ?_
  · constructor
    · exact fun hfree => absurd hfree hne
    · exact fun _ hc => absurd hc (Option.some_ne_none d)
    · exact fun _ _ => .inl rfl
    · exact fun _ => Option.some_ne_none d
    · exact (h.slots i).isocket
    · rintro d' hd' hsame
      -- the descriptor of the slot was allocated before
      have hlive := (h.balanced.sound i d' (.inl hd')).1
      cases hsame
      rw [hfresh] at hlive
      exact Bool.false_ne_true hlive
  · intro d'
    unfold Slot.Points
    rw [hconn]
    simp only [Option.some.injEq, reduceCtorEq, or_false]
    rw [eq_comm (a := d)]

/-- A slot that loses its last descriptor and is freed. -/
theorem Owns.free {files : Fin openMax → Fd} {sockets : Fin nSockets → Slot}
    (h : Owns files sockets) {d : Fin openMax} {f' : Fd} {s' : Slot}
    (honly : ∀ d', (sockets i).Points d' ↔ d' = d) (halloc : f'.isallocated = false)
    (hclosed : f'.isopen = false) (hfd : s'.fd = socketFreeFd) (hst : s'.state = .none)
    (hdata : s'.fdData = none) (hconn : s'.connectionData = none) :
    Owns (Function.update files d f') (Function.update sockets i s') := by
  refine h.release ((honly d).2 rfl) halloc hclosed ?_ ?_
  · constructor
    · exact fun _ => ⟨hst, hdata, hconn⟩
    · exact fun _ _ => hfd
    · exact fun hne => absurd hdata hne
    · intro ha
      rw [hst] at ha
      exact SocketState.noConfusion ha
    · exact fun hne => absurd hfd hne
    · intro d' hd'
      rw [hdata] at hd'
      exact absurd hd'.symm (Option.some_ne_none d')
  · intro d'
    rw [honly]
    unfold Slot.Points
    rw [hdata, hconn]
    simp

/-- A free slot with a fresh descriptor. -/
theorem Owns.create {files : Fin openMax → Fd} {sockets : Fin nSockets → Slot}
    (h : Owns files sockets) {d : Fin openMax} (type : SockType)
    (hfd : (sockets i).fd = socketFreeFd) (hfresh : (files d).isallocated = false) :
    Owns (Function.update files d (Fd.socket d i))
      (Function.update sockets i ((sockets i).created i type d)) := by
  obtain ⟨-, hdata, hconn⟩ := (h.slots i).free hfd
  refine h.adopt hfresh rfl ⟨rfl, rfl, rfl, rfl⟩ rfl ?_ ?_
  · have hne : (d.val : ℤ) ≠ socketFreeFd := by
      unfold socketFreeFd
      omega
    constructor
    · exact fun hfree => absurd hfree hne
    · exact fun hd => absurd hd (Option.some_ne_none d)
    · exact fun _ hc => absurd rfl hc
    · exact fun ha => SocketState.noConfusion ha
    · exact fun _ => rfl
    · exact fun d' _ => (Option.some_ne_none d').symm
  · intro d'
    unfold Slot.Points Slot.created
    rw [hdata, hconn]
    simp [eq_comm]

/-- The listening descriptor of a slot with a connection is given back: the slot stays with that
of the connection. -/
theorem Owns.loseListener {files : Fin openMax → Fd} {sockets : Fin nSockets → Slot}
    (h : Owns files sockets) {d : Fin openMax} {f' : Fd} (halloc : f'.isallocated = false)
    (hclosed : f'.isopen = false) (hdata : (sockets i).fdData = some d)
    (hst : (sockets i).state = .accepted) :
    Owns (Function.update files d f')
      (Function.update sockets i { sockets i with fdData := none }) := by
  have hconn := (h.slots i).accepted hst
  refine h.release (.inl hdata) halloc hclosed ?_ ?_
  · constructor
    · exact fun hfree => absurd (hst.symm.trans ((h.slots i).free hfree).1)
        fun hc => SocketState.noConfusion hc
    · exact fun _ hc => absurd hc hconn
    · exact fun hd => absurd rfl hd
    · exact fun _ => hconn
    · exact (h.slots i).isocket
    · exact fun d' hd' => absurd hd'.symm (Option.some_ne_none d')
  · intro d'
    have hdis := (h.slots i).distinct d hdata
    unfold Slot.Points
    rw [hdata]
    constructor
    · rintro (hc | hc)
      · exact absurd hc.symm (Option.some_ne_none d')
      · refine ⟨.inr hc, ?_⟩
        rintro rfl
        exact hdis hc
    · rintro ⟨hp | hp, hd'⟩
      · exact absurd (Option.some.inj hp).symm hd'
      · exact .inr hp

/-- The descriptor of a connection is given back: the slot listens again. -/
theorem Owns.loseConnection {files : Fin openMax → Fd} {sockets : Fin nSockets → Slot}
    (h : Owns files sockets) {d : Fin openMax} {f' : Fd} (halloc : f'.isallocated = false)
    (hclosed : f'.isopen = false) (hconn : (sockets i).connectionData = some d)
    (hdata : (sockets i).fdData ≠ none) :
    Owns (Function.update files d f') (Function.update sockets i
      { sockets i with connectionData := none, state := .listening }) := by
  refine h.release (.inr hconn) halloc hclosed ?_ ?_
  · constructor
    · intro hfree
      rw [((h.slots i).free hfree).2.2] at hconn
      exact absurd hconn.symm (Option.some_ne_none d)
    · exact fun hd => absurd hd hdata
    · exact fun _ hc => absurd rfl hc
    · exact fun ha => SocketState.noConfusion ha
    · exact (h.slots i).isocket
    · exact fun d' _ => (Option.some_ne_none d').symm
  · intro d'
    unfold Slot.Points
    rw [hconn]
    constructor
    · rintro (hc | hc)
      · refine ⟨.inl hc, ?_⟩
        rintro rfl
        exact (h.slots i).distinct d' hc hconn
      · exact absurd hc.symm (Option.some_ne_none d')
    · rintro ⟨hp | hp, hd'⟩
      · exact .inl hp
      · exact absurd (Option.some.inj hp).symm hd'

/-! ### Turns and effects -/

theorem Owns.turn {T T' : Tables} (h : Owns T.files T.sockets) (ht : Turn T T') :
    Owns T'.files T'.sockets := by
  cases ht with
  | slot i s hs => exact h.setSlot ((h.slots i).turns hs) hs.fdData hs.connectionData
  | flags d df sf => exact h.setFile rfl rfl rfl rfl rfl (.inl rfl)

/-- A call keeps the invariant unless it loses a descriptor: that of a connection that has
ended, of a slot that listens again. -/
theorem Owns.effect {χ : Type} {T T' : Tables} {call : NetCall χ} (h : Owns T.files T.sockets)
    (haccept : ∀ (l : Fin openMax) i wantAddr, call = .accept (l.val : ℤ) wantAddr →
      (T.files l).opaquePtr = .slot i → ¬ (T.sockets i).Stranded)
    (hclose : ∀ (d : Fin openMax) i, call = .close (d.val : ℤ) → (T.sockets i).fdData = some d →
      ¬ (T.sockets i).Stranded)
    (he : Effect T call T') : Owns T'.files T'.sockets := by
  cases he with
  | turned ht =>
      induction ht with
      | refl => exact h
      | tail _ hlast ih => exact ih.turn hlast
  | refused i hfd =>
      obtain ⟨-, hdata, hconn⟩ := (h.slots i).free hfd
      refine h.setSlot ?_ hdata.symm hconn.symm
      constructor
      · exact fun _ => ⟨rfl, rfl, rfl⟩
      · exact fun _ _ => rfl
      · exact fun hne => absurd rfl hne
      · exact fun ha => SocketState.noConfusion ha
      · exact fun hne => absurd rfl hne
      · exact fun d hd => absurd hd.symm (Option.some_ne_none d)
  | created i d hfd hfresh => exact h.create _ hfd hfresh
  | accepted l i d hptr hst htype hfresh =>
      have hconn : (T.sockets i).connectionData = none := by
        by_contra hc
        exact haccept l i _ rfl hptr ⟨hst, hc⟩
      exact h.accept hfresh rfl ⟨rfl, rfl, rfl, rfl⟩ rfl hst hconn
  | console d hdriver =>
      refine h.setFile rfl rfl rfl rfl rfl (.inr ⟨rfl, ?_⟩)
      cases ha : (T.files d).isallocated with
      | false => rfl
      | true => exact absurd (h.fds d ha).close hdriver
  | closed d i hwhich =>
      refine h.free (fun d' => ?_) rfl rfl rfl rfl rfl rfl
      unfold Slot.Points
      rcases hwhich with ⟨hdata, hacc⟩ | ⟨hconn, hdata⟩
      · have hconn : (T.sockets i).connectionData = none := by
          by_cases hlis : (T.sockets i).state = .listening
          · by_contra hc
            exact hclose d i rfl hdata ⟨hlis, hc⟩
          · exact (h.slots i).not_shared hacc hlis (by rw [hdata]; exact Option.some_ne_none d)
        rw [hdata, hconn]
        simp [eq_comm]
      · rw [hdata, hconn]
        simp [eq_comm]
  | closedListener d i hdata hst => exact h.loseListener rfl rfl hdata hst
  | closedConnection d i hconn hdata => exact h.loseConnection rfl rfl hconn hdata

end Invariant

end W5100

end Nucleo
