/-
# Ownership along runs

`ownEachOther_of_run`: in every run from `w5100_socket_init` in which no call strands a
descriptor, slots and descriptors own each other, and `close` gives descriptors back.
A server that accepts a second connection before it closes the
descriptor of the first one loses that descriptor (`relisten_strands_descriptor`).
-/
import Nucleo.W5100Ownership

namespace Nucleo

namespace W5100

open Comp Ownership

section Runs

variable {χ κ δ ψ : Type} (B : Board χ) (L : Fat.FatLib κ δ ψ)
  {w w' : World χ (Fat.FatFs κ δ ψ)}

/-! ## `close` gives a descriptor back -/

/-- `close` of an allocated descriptor is `w5100_sock_close`. -/
theorem post_sysClose_of_allocated (fuel : ℕ) (h : Owns w.files w.sockets) {d : Fin openMax}
    (halloc : (w.files d).isallocated = true) {Q : ℤ → World χ (Fat.FatFs κ δ ψ) → Prop} :
    Post (sysClose B L fuel (d.val : ℤ)) Q w ↔ Post (sockClose B fuel (d.val : ℤ)) Q w := by
  have hf := h.fds d halloc
  unfold sysClose Post
  rw [withOpen_of_open _ _ hf.isopen, hf.close]

/-- `close` of an allocated descriptor releases it. -/
theorem post_sysClose_releases (fuel : ℕ) (hs : Sound w.tables) (h : Owns w.files w.sockets)
    {d : Fin openMax} (halloc : (w.files d).isallocated = true) :
    Post (sysClose B L fuel (d.val : ℤ))
      (fun r w' => r = 0 ∧ (w'.files d).isallocated = false) w := by
  have hf := h.fds d halloc
  obtain ⟨i, ⟨hpoint, hown⟩, -⟩ := h.balanced.existsUnique halloc
  -- an entry of the slot with the number of the descriptor is the descriptor
  have hself : ∀ d', (w.sockets i).Points d' → (w.files d').fd = (d.val : ℤ) → d' = d := by
    intro d' hd' hfd
    rw [(h.fds d' (h.balanced.sound i d' hd').1).fd] at hfd
    exact Fin.ext (by omega)
  rw [post_sysClose_of_allocated B L fuel h halloc]
  unfold sockClose
  rw [post_bind, post_getSocketFromFd_of_sock hf.sock (slotOf_eq_some.1 hown)]
  dsimp only
  rw [post_bind, post_get]
  cases hdata : (w.sockets i).fdData.filter (fun d' => (w.files d').fd = (d.val : ℤ)) with
  | some d1 =>
      obtain ⟨hd1, hfd1⟩ := Option.filter_eq_some_iff.1 hdata
      have hd := hself d1 (.inl hd1) (by simpa using hfd1)
      subst hd
      exact (effect_closeFdData B fuel hs hd1).mono fun _ _ h' => ⟨h'.1, h'.2.1⟩
  | none =>
      dsimp only
      cases hconn : (w.sockets i).connectionData.filter
          (fun d' => (w.files d').fd = (d.val : ℤ)) with
      | some d1 =>
          obtain ⟨hd1, hfd1⟩ := Option.filter_eq_some_iff.1 hconn
          have hd := hself d1 (.inr hd1) (by simpa using hfd1)
          subst hd
          exact (effect_closeConnectionData B fuel hs hd1).mono fun _ _ h' => ⟨h'.1, h'.2.1⟩
      | none =>
          exfalso
          rcases hpoint with hp | hp
          · rw [hp, Option.filter_some, if_pos (by simpa using hf.fd)] at hdata
            exact Option.some_ne_none d hdata
          · rw [hp, Option.filter_some, if_pos (by simpa using hf.fd)] at hconn
            exact Option.some_ne_none d hconn

/-! ## Runs -/

theorem owns_of_freed {files : Fin openMax → Fd} {sockets : Fin nSockets → Slot}
    (hfiles : files = stdioInit) (hfreed : ∀ i, (sockets i).Freed) : Owns files sockets := by
  -- the console descriptors are open, but not allocated
  have halloc : ∀ d, (files d).isallocated = false := by
    intro d
    rw [hfiles]
    unfold stdioInit stdioFd
    split_ifs <;> rfl
  have hclose : ∀ d, (files d).close = none := by
    intro d
    rw [hfiles]
    exact close_stdioInit d
  refine ⟨fun i => ?_, fun d ha => ?_, fun d _ => .inr (hclose d), ?_⟩
  · obtain ⟨hfd, hst, hdata, hconn⟩ := hfreed i
    constructor
    · exact fun _ => ⟨hst, hdata, hconn⟩
    · exact fun _ _ => hfd
    · exact fun hne => absurd hdata hne
    · intro ha
      rw [hst] at ha
      exact SocketState.noConfusion ha
    · exact fun hne => absurd hfd hne
    · intro d hd
      rw [hdata] at hd
      exact absurd hd.symm (Option.some_ne_none d)
  · rw [halloc d] at ha
    exact absurd ha Bool.false_ne_true
  · constructor
    · rintro i d (hd | hd)
      · rw [(hfreed i).2.2.1] at hd
        exact absurd hd.symm (Option.some_ne_none d)
      · rw [(hfreed i).2.2.2] at hd
        exact absurd hd.symm (Option.some_ne_none d)
    · intro d ha
      rw [halloc d] at ha
      exact absurd ha Bool.false_ne_true

/-- One call keeps the invariant unless it strands a descriptor. -/
theorem owns_exec (hs : Sound w.tables) (h : Owns w.files w.sockets) (call : ℕ × SocketCall)
    (hok : ¬ Strands w call.2) :
    Post (SocketCall.exec B L call)
      (fun _ w' => Sound w'.tables ∧ Owns w'.files w'.sockets) w := by
  rw [SocketCall.exec_eq]
  refine (effect_exec B L hs (call.1, call.2.toNet)).mono fun _ w2 he => ?_
  refine ⟨hs.effect he, Owns.effect (T := w.tables) h ?_ ?_ he⟩
  · intro l i wantAddr hcall hptr hstr
    obtain ⟨fuel, call⟩ := call
    cases call with
    | accept fd want =>
        have hfd : fd = (l.val : ℤ) := (NetCall.accept.inj hcall).1
        exact hok ⟨l, i, hfd, hptr, hstr⟩
    | _ => cases hcall
  · intro d i hcall hdata hstr
    obtain ⟨fuel, call⟩ := call
    cases call with
    | close fd => exact hok ⟨d, i, NetCall.close.inj hcall, hdata, hstr⟩
    | _ => cases hcall

/-- The invariant says that slots and descriptors own each other. -/
theorem Owns.ownEachOther (hs : Sound w.tables) (h : Owns w.files w.sockets) : OwnEachOther B L w where
  owned d hd := by
    obtain ⟨i, ⟨hpoint, hown⟩, huniq⟩ := h.balanced.existsUnique hd.1
    exact ⟨i, ⟨hpoint, slotOf_eq_some.1 hown⟩, huniq⟩
  allocated i d hd := (h.balanced.sound i d hd).1
  free_iff i := by
    constructor
    · intro hfree
      exact ((h.slots i).free hfree.1).2
    · rintro ⟨hdata, hconn⟩
      have hfd := (h.slots i).used hdata hconn
      exact ⟨hfd, ((h.slots i).free hfd).1⟩
  released d hd fuel r w' heq := by
    exact post_sysClose_releases B L fuel hs h hd.1 r w' heq

/-- **Slots and descriptors own each other** in every state reached from
`w5100_socket_init` by calls none of which strands a descriptor. -/
theorem ownEachOther_of_run (static : Option StaticIp) (fuel : ℕ) (chip : χ)
    (fat : Fat.FatFs κ δ ψ) (w₀ : World χ (Fat.FatFs κ δ ψ))
    (hinit : socketInit B fuel static (bootWorld chip fat) = .ok ((), w₀))
    (hrun : Run (SocketCall.exec B L) (fun w call => ¬ Strands w call.2) w₀ w) :
    OwnEachOther B L w := by
  obtain ⟨hfiles, hfreed⟩ := freed_socketInit B fuel static _ _ hinit
  have hstart : Sound w₀.tables ∧ Owns w₀.files w₀.sockets :=
    ⟨sound_start hfiles hfreed, owns_of_freed hfiles hfreed⟩
  obtain ⟨hs, h⟩ := hrun.invariant (I := fun w => Sound w.tables ∧ Owns w.files w.sockets) hstart
    (fun w call h hok => owns_exec B L h.1 h.2 call hok)
  exact Owns.ownEachOther B L hs h

end Runs

/-! ## A run that strands a descriptor -/

/-- A board that answers every read with the next byte of a script. -/
def scriptBoard : Board (List Byte) where
  read _ c := (c.headD 0, c.tail)
  write _ _ c := c
  clockGettime c := (timespecZero, c)
  usartReady c := (true, c)
  usartRecv c := (0, c)
  usartSend _ c := c

/-- A file system without a disk. -/
def noDisk : Fat.FatLib Unit Unit Unit where
  fOpen _ _ _ := (.notReady, (), ())
  fOpendir _ _ := (.notReady, (), ())
  fStat _ fno _ := (.notReady, fno, ())
  fClose o _ := (.notReady, o, ())
  fClosedir o _ := (.notReady, o, ())
  fRead _ o _ := ((.notReady, []), o, ())
  fWrite _ o _ := ((.notReady, 0), o, ())
  fLseek _ o _ := (.notReady, o, ())
  fSize _ := 0
  fTell _ := 0

def noFiles : Fat.FatFs Unit Unit Unit := ⟨fun _ => ⟨false, .zero⟩, ()⟩

/-- A server: the peer of its first connection goes away, and `recv` puts the slot back to
`LISTENING`. -/
def serverCalls : List (ℕ × SocketCall) :=
  [(1, .socket .inet .stream 0), (1, .bind 3 ⟨.inet, 80, inaddrAny⟩), (1, .listen 3),
   (1, .accept 3 false), (1, .recv 4 1)]

/-- What the chip answers to it: the socket opens, listens and is established; then nothing
is received, the peer has closed, and the socket closes and listens again. -/
def serverScript : List Byte :=
  [0, sockInit, 0, sockListen, sockEstablished, 0, 0, sockCloseWait, 0, sockClosed, 0, 0, sockListen]

/-- The state after `w5100_socket_init` and the calls, while `ok` allows them. -/
def scriptRun (ok : World (List Byte) (Fat.FatFs Unit Unit Unit) → ℕ × SocketCall → Bool)
    (script : List Byte) (calls : List (ℕ × SocketCall)) :
    Option (World (List Byte) (Fat.FatFs Unit Unit Unit)) :=
  match socketInit scriptBoard 1 none (bootWorld (0 :: script) noFiles) with
  | .ok (_, w₀) => runList (SocketCall.exec scriptBoard noDisk) ok calls w₀
  | .error _ => none

/-- The state after `w5100_socket_init` and calls on a board without files, while `ok` allows
them. -/
def bootRun {χ : Type} (B : Board χ) (chip : χ)
    (ok : World χ (Fat.FatFs Unit Unit Unit) → ℕ × SocketCall → Bool)
    (calls : List (ℕ × SocketCall)) : Option (World χ (Fat.FatFs Unit Unit Unit)) :=
  match socketInit B 1 none (bootWorld chip noFiles) with
  | .ok (_, w₀) => runList (SocketCall.exec B noDisk) ok calls w₀
  | .error _ => none

theorem run_of_bootRun {χ : Type} {B : Board χ} {chip : χ}
    {ok : World χ (Fat.FatFs Unit Unit Unit) → ℕ × SocketCall → Prop}
    {okb : World χ (Fat.FatFs Unit Unit Unit) → ℕ × SocketCall → Bool}
    (hok : ∀ w call, okb w call = true → ok w call) {calls : List (ℕ × SocketCall)}
    {w : World χ (Fat.FatFs Unit Unit Unit)} (h : bootRun B chip okb calls = some w) :
    ∃ w₀, socketInit B 1 none (bootWorld chip noFiles) = .ok ((), w₀) ∧
      Run (SocketCall.exec B noDisk) ok w₀ w := by
  unfold bootRun at h
  cases hinit : socketInit B 1 none (bootWorld chip noFiles) with
  | error e =>
      rw [hinit] at h
      cases h
  | ok r =>
      rw [hinit] at h
      exact ⟨r.2, rfl, Run.of_runList hok .start h⟩

theorem run_of_scriptRun {ok : World (List Byte) (Fat.FatFs Unit Unit Unit) → ℕ × SocketCall → Prop}
    {okb : World (List Byte) (Fat.FatFs Unit Unit Unit) → ℕ × SocketCall → Bool}
    (hok : ∀ w call, okb w call = true → ok w call) {script : List Byte}
    {calls : List (ℕ × SocketCall)} {w : World (List Byte) (Fat.FatFs Unit Unit Unit)}
    (h : scriptRun okb script calls = some w) :
    ∃ w₀, socketInit scriptBoard 1 none (bootWorld (0 :: script) noFiles) = .ok ((), w₀) ∧
      Run (SocketCall.exec scriptBoard noDisk) ok w₀ w := by
  have hboot : bootRun scriptBoard (0 :: script) okb calls = scriptRun okb script calls := by
    unfold bootRun scriptRun
    cases socketInit scriptBoard 1 none (bootWorld (0 :: script) noFiles) <;> rfl
  exact run_of_bootRun hok (hboot.trans h)

instance (s : Slot) : Decidable s.Stranded :=
  inferInstanceAs (Decidable (s.state = .listening ∧ s.connectionData ≠ none))

instance (s : Slot) (d : Fin openMax) : Decidable (s.Points d) :=
  inferInstanceAs (Decidable (s.fdData = some d ∨ s.connectionData = some d))

instance {φ χ : Type} (w : World χ φ) (call : SocketCall) : Decidable (Strands w call) :=
  match call with
  | .accept fd _ => inferInstanceAs (Decidable (∃ (d : Fin openMax) (i : Fin nSockets),
      fd = (d.val : ℤ) ∧ (w.files d).opaquePtr = .slot i ∧ (w.sockets i).Stranded))
  | .close fd => inferInstanceAs (Decidable (∃ (d : Fin openMax) (i : Fin nSockets),
      fd = (d.val : ℤ) ∧ (w.sockets i).fdData = some d ∧ (w.sockets i).Stranded))
  | .socket .. | .bind .. | .connect .. | .listen .. | .send .. | .recv .. =>
      inferInstanceAs (Decidable False)

/-! ### The descriptor that is lost -/

/-- A socket that no slot points to. -/
def Lost {χ φ : Type} (w : World χ φ) (d : Fin openMax) : Prop :=
  ((w.files d).isallocated = true ∧ (w.files d).stat.fileType = .sock) ∧
    ∀ i, ¬ (w.sockets i).Points d

instance {χ φ : Type} (w : World χ φ) (d : Fin openMax) : Decidable (Lost w d) :=
  inferInstanceAs (Decidable (((w.files d).isallocated = true ∧
    (w.files d).stat.fileType = .sock) ∧ ∀ i, ¬ (w.sockets i).Points d))

/-- The server closes the descriptor of the connection and accepts another one. -/
theorem ownEachOther_server : ∃ w, scriptRun (fun w call => ¬ Strands w call.2)
      (serverScript ++ [0, sockClosed, 0, 0, sockListen, sockEstablished])
      (serverCalls ++ [(1, .close 4), (1, .accept 3 false)]) = some w ∧
    OwnEachOther scriptBoard noDisk w := by
  have hsome : (scriptRun (fun w call => ¬ Strands w call.2)
      (serverScript ++ [0, sockClosed, 0, 0, sockListen, sockEstablished])
      (serverCalls ++ [(1, .close 4), (1, .accept 3 false)])).isSome = true := by decide +kernel
  obtain ⟨w, hw⟩ := Option.isSome_iff_exists.1 hsome
  obtain ⟨w₀, hinit, hrun⟩ := run_of_scriptRun (fun w call h => of_decide_eq_true h) hw
  exact ⟨w, hw, ownEachOther_of_run _ _ none 1 _ _ w₀ hinit hrun⟩

/-- The server accepts another connection without closing the descriptor of the first one:
no slot points to that descriptor any more. -/
theorem relisten_strands_descriptor : ∃ w₀ w,
    socketInit scriptBoard 1 none (bootWorld (0 :: (serverScript ++ [sockEstablished])) noFiles)
      = .ok ((), w₀) ∧
    Run (SocketCall.exec scriptBoard noDisk) (fun _ _ => True) w₀ w ∧
    ¬ OwnEachOther scriptBoard noDisk w := by
  have hlost : (scriptRun (fun _ _ => true) (serverScript ++ [sockEstablished])
      (serverCalls ++ [(1, .accept 3 false)])).any (fun w => Lost w 4) = true := by decide +kernel
  obtain ⟨w, hw, hl⟩ := (Option.any_eq_true _ _).1 hlost
  have hreach : ∃ w₀, socketInit scriptBoard 1 none
      (bootWorld (0 :: (serverScript ++ [sockEstablished])) noFiles) = .ok ((), w₀) ∧
      Run (SocketCall.exec scriptBoard noDisk) (fun _ _ => True) w₀ w :=
    run_of_scriptRun (fun _ _ _ => trivial) hw
  obtain ⟨w₀, hinit, hrun⟩ := hreach
  refine ⟨w₀, w, hinit, hrun, fun h => ?_⟩
  have hl' : Lost w 4 := of_decide_eq_true hl
  obtain ⟨i, ⟨hpoint, -⟩, -⟩ := h.owned 4 hl'.1
  exact hl'.2 i hpoint

end W5100

end Nucleo
