/-
# The effects of all calls

`effect_exec`: every call does to the tables one of the things that `Effect` lists.  It
needs the invariant `Sound`, which the effects keep.  So an invariant of the tables is
proved from `Effect` alone, and `tables_of_run` brings it to runs from
`w5100_socket_init`.
-/
import Nucleo.W5100Calls

namespace Nucleo

namespace W5100

open Comp

/-! ## The invariant behind the effects -/

/-- A slot that is in use knows its own number, the entries that slots point to know
theirs, and no descriptor is a file's. -/
structure Sound (T : Tables) : Prop where
  isocket : ∀ i, (T.sockets i).state ≠ .none ∨ (∃ d, (T.sockets i).Points d) →
    (T.sockets i).isocket = i
  number : ∀ i d, (T.sockets i).Points d → (T.files d).fd = (d.val : ℤ)
  drivers : ∀ d, (T.files d).close ≠ some .fatfs

/-- Slots that turn stay in use. -/
theorem Slot.Turns.state_ne_none {s s' : Slot} (h : s.Turns s') (hs : s'.state ≠ .none) :
    s.state ≠ .none := by
  rcases h.state with heq | hnext
  · rw [← heq]
    exact hs
  · intro hnone
    generalize s'.state = st at hnext
    cases hnext with
    | bound hst => exact SocketState.noConfusion (hnone.symm.trans hst)
    | connected hst _ => exact SocketState.noConfusion (hnone.symm.trans hst)
    | listening hst _ => exact SocketState.noConfusion (hnone.symm.trans hst)
    | relistening hst _ => exact SocketState.noConfusion (hnone.symm.trans hst)
    | disconnected hst _ =>
        rcases hst with hst | hst
        · exact SocketState.noConfusion (hnone.symm.trans hst)
        · exact SocketState.noConfusion (hnone.symm.trans hst)

/-- A turn leaves what a slot points to. -/
theorem Slot.Turns.points_iff {s s' : Slot} (h : s.Turns s') (d : Fin openMax) :
    s'.Points d ↔ s.Points d := by
  unfold Slot.Points
  rw [h.fdData, h.connectionData]

/-- **A turn keeps the tables sound**. -/
theorem Sound.turn {T T' : Tables} (h : Sound T) (ht : Turn T T') : Sound T' := by
  -- a turn changes a slot but not its descriptors, or the flags of a descriptor
  cases ht with
  | slot i s hs =>
      constructor
      · intro j hj
        by_cases hji : j = i
        · subst hji
          rw [Tables.setSlot_sockets_self] at hj ⊢
          rw [hs.isocket]
          apply h.isocket
          rcases hj with hst | ⟨d, hd⟩
          · exact .inl (hs.state_ne_none hst)
          · exact .inr ⟨d, (hs.points_iff d).1 hd⟩
        · rw [Tables.setSlot_sockets_of_ne _ _ hji] at hj ⊢
          exact h.isocket j hj
      · intro j d hd
        by_cases hji : j = i
        · subst hji
          rw [Tables.setSlot_sockets_self] at hd
          exact h.number j d ((hs.points_iff d).1 hd)
        · rw [Tables.setSlot_sockets_of_ne _ _ hji] at hd
          exact h.number j d hd
      · exact h.drivers
  | flags d df sf =>
      refine ⟨h.isocket, fun i d' hd' => ?_, fun d' => ?_⟩
      · by_cases hdd : d' = d
        · subst hdd
          rw [Tables.setFile_files_self]
          exact h.number i d' hd'
        · rw [Tables.setFile_files_of_ne _ _ hdd]
          exact h.number i d' hd'
      · by_cases hdd : d' = d
        · subst hdd
          rw [Tables.setFile_files_self]
          exact h.drivers d'
        · rw [Tables.setFile_files_of_ne _ _ hdd]
          exact h.drivers d'

/-! ### Changes of the tables -/

/-- Entries that know their number go on knowing it, and slots that know theirs. -/
theorem Sound.update {T : Tables} (h : Sound T) {d : Fin openMax} {f : Fd} {i : Fin nSockets}
    {s : Slot} (hnum : f.fd = (d.val : ℤ)) (hdriver : f.close ≠ some .fatfs)
    (hisocket : s.state ≠ .none ∨ (∃ d', s.Points d') → s.isocket = i)
    (hpoints : ∀ d', s.Points d' → (T.sockets i).Points d' ∨ d' = d) :
    Sound ((T.setFile d f).setSlot i s) where
  isocket j hj := by
    by_cases hji : j = i
    · subst hji
      rw [Tables.setSlot_sockets_self] at hj ⊢
      exact hisocket hj
    · rw [Tables.setSlot_sockets_of_ne _ _ hji] at hj ⊢
      exact h.isocket j hj
  number j d' hd' := by
    rw [Tables.setSlot_files]
    by_cases hdd : d' = d
    · subst hdd
      rw [Tables.setFile_files_self]
      exact hnum
    · rw [Tables.setFile_files_of_ne _ _ hdd]
      by_cases hji : j = i
      · subst hji
        rw [Tables.setSlot_sockets_self] at hd'
        exact h.number j d' ((hpoints d' hd').resolve_right hdd)
      · rw [Tables.setSlot_sockets_of_ne _ _ hji] at hd'
        exact h.number j d' hd'
  drivers d' := by
    rw [Tables.setSlot_files]
    by_cases hdd : d' = d
    · subst hdd
      rw [Tables.setFile_files_self]
      exact hdriver
    · rw [Tables.setFile_files_of_ne _ _ hdd]
      exact h.drivers d'

/-- A slot that is released points to nothing. -/
theorem Slot.released_not_points (s : Slot) (d : Fin openMax) : ¬ s.released.Points d := by
  rintro (hd | hd)
  · exact Option.some_ne_none d hd.symm
  · exact Option.some_ne_none d hd.symm

/-- A slot that has been released need not know its number. -/
theorem Sound.released {T : Tables} (h : Sound T) {i : Fin nSockets} :
    Sound (T.setSlot i (T.sockets i).released) where
  isocket j hj := by
    by_cases hji : j = i
    · subst hji
      rw [Tables.setSlot_sockets_self] at hj
      rcases hj with hst | ⟨d, hd⟩
      · exact absurd rfl hst
      · exact absurd hd (Slot.released_not_points _ d)
    · rw [Tables.setSlot_sockets_of_ne _ _ hji] at hj ⊢
      exact h.isocket j hj
  number j d hd := by
    by_cases hji : j = i
    · subst hji
      rw [Tables.setSlot_sockets_self] at hd
      exact absurd hd (Slot.released_not_points _ d)
    · rw [Tables.setSlot_sockets_of_ne _ _ hji] at hd
      exact h.number j d hd
  drivers := h.drivers

/-- A file structure with the same number and driver may be put in. -/
theorem Sound.setFile {T : Tables} (h : Sound T) {d : Fin openMax} {f : Fd}
    (hnum : f.fd = (T.files d).fd) (hdriver : f.close = (T.files d).close) :
    Sound (T.setFile d f) where
  isocket := h.isocket
  number i d' hd' := by
    by_cases hdd : d' = d
    · subst hdd
      rw [Tables.setFile_files_self, hnum]
      exact h.number i d' hd'
    · rw [Tables.setFile_files_of_ne _ _ hdd]
      exact h.number i d' hd'
  drivers d' := by
    by_cases hdd : d' = d
    · subst hdd
      rw [Tables.setFile_files_self, hdriver]
      exact h.drivers d'
    · rw [Tables.setFile_files_of_ne _ _ hdd]
      exact h.drivers d'

/-! ### Whole calls -/

/-- Every call keeps the invariant. -/
theorem Sound.effect {χ : Type} {T T' : Tables} {call : NetCall χ} (h : Sound T)
    (he : Effect T call T') : Sound T' := by
  cases he with
  | turned ht =>
      induction ht with
      | refl => exact h
      | tail _ hlast ih => exact ih.turn hlast
  | refused i hfd => exact h.released
  | created i d hfd hfresh =>
      refine h.update rfl (fun hc => Driver.noConfusion (Option.some.inj hc)) (fun _ => rfl) ?_
      rintro d' (hd' | hd')
      · exact .inr (Option.some.inj hd').symm
      · exact absurd hd'.symm (Option.some_ne_none d')
  | accepted l i d hptr hst htype hfresh =>
      refine h.update rfl (fun hc => Driver.noConfusion (Option.some.inj hc)) (fun _ => ?_) ?_
      · exact h.isocket i (.inl (by rw [hst]; exact fun hc => SocketState.noConfusion hc))
      · rintro d' (hd' | hd')
        · exact .inl (.inl hd')
        · exact .inr (Option.some.inj hd').symm
  | console d hclose => exact h.setFile rfl rfl
  | closed d i hwhich =>
      exact (h.setFile (d := d) (f := (T.files d).closed) rfl rfl).released
  | closedListener d i hdata hst =>
      refine h.update (h.number i d (.inl hdata)) (h.drivers d) (fun _ => ?_) ?_
      · exact h.isocket i (.inr ⟨d, .inl hdata⟩)
      · rintro d' (hd' | hd')
        · exact absurd hd'.symm (Option.some_ne_none d')
        · exact .inl (.inr hd')
  | closedConnection d i hconn hdata =>
      refine h.update (h.number i d (.inr hconn)) (h.drivers d) (fun _ => ?_) ?_
      · exact h.isocket i (.inr ⟨d, .inr hconn⟩)
      · rintro d' (hd' | hd')
        · exact .inl (.inl hd')
        · exact absurd hd'.symm (Option.some_ne_none d')

section Effects

variable {χ φ : Type} (B : Board χ) (fuel : ℕ) {w w' : World χ φ} {i : Fin nSockets}

/-- Every call may leave the tables as they are. -/
theorem effect_of_same {T : Tables} {call : NetCall χ} (h : w'.tables = T) :
    Effect T call w'.tables := by
  rw [h]
  exact .turned .refl

/-! ## `socket` -/

/-- The slot that is found is free. -/
theorem firstFreeSlot_eq_some {sockets : Fin nSockets → Slot} {i : Fin nSockets}
    (h : firstFreeSlot sockets = some i) : (sockets i).fd = socketFreeFd := by
  have hi := List.find?_some h
  simpa using hi

/-- `socket` leaves the tables, or fills a slot and a descriptor. -/
theorem effect_socket (domain : Family) (type : SockType) (protocol : ℤ) :
    Post (socket B domain type protocol)
      (fun _ w' => Effect w.tables (.socket domain type protocol : NetCall χ) w'.tables) w := by
  have hsame : Effect w.tables (.socket domain type protocol : NetCall χ) w.tables :=
    .turned .refl
  unfold socket
  simp only [post_ite]
  refine ⟨fun _ => post_fail.2 hsame, fun _ => ⟨fun _ => post_fail.2 hsame, fun _ =>
    ⟨fun _ => post_fail.2 hsame, fun _ => ?_⟩⟩⟩
  unfold socketCreate socketAlloc
  rw [post_bind, post_bind, post_get]
  cases hfree : firstFreeSlot w.sockets with
  | none => exact post_fail.2 (post_fail.2 hsame)
  | some i =>
      have hfd := firstFreeSlot_eq_some hfree
      dsimp only
      rw [post_bind, post_modifySlot, post_pure]
      dsimp only
      rw [post_bind]
      apply post_fileAlloc
      · dsimp only
        unfold socketFree
        rw [post_bind, post_modifySlot, post_fail]
        simp only [World.setErrno_tables, World.setSlot_tables, World.setSlot_sockets,
          Function.update_self, Tables.setSlot_setSlot]
        -- the slot is released again
        exact .refused i hfd
      · intro d _ hfresh
        dsimp only
        unfold fillFdStruct
        rw [post_bind, post_modifyFile, post_bind, post_modifySlot]
        apply post_onChip_bind
        intro _ c1
        rw [post_pure]
        simp only [World.setChip_tables, World.setSlot_tables, World.setFile_tables,
          World.setSlot_sockets, World.setFile_sockets, World.setFile_files, Function.update_self,
          Tables.setFile_setSlot, Tables.setSlot_setSlot, Tables.setFile_setFile]
        exact .created i d hfd hfresh

/-! ## `accept` -/

/-- A slot with a new descriptor for an accepted connection, or the same tables. -/
theorem post_acceptEstablished {k : Fin nSockets} (wantAddr : Bool)
    (hi : (w.sockets i).isocket = k) :
    Post (acceptEstablished B fuel i wantAddr) (fun r w' =>
      r.1 = -1 ∧ w'.tables = w.tables ∨ ∃ d, (w.files d).isallocated = false ∧
        r.1 = (d.val : ℤ) ∧ w'.errno = w.errno ∧
        w'.tables = (w.tables.setFile d (Fd.socket d k)).setSlot i
          { w.sockets i with state := .accepted, connectionData := some d }) w := by
  unfold acceptEstablished
  rw [post_bind, post_getSlot, post_bind, hi]
  apply post_fileAlloc
  · dsimp only
    rw [post_bind, post_setErrno]
    apply post_onChip_bind
    intro _ c1
    apply post_onChip_bind
    intro _ c2
    apply post_onChip_bind
    intro _ c3
    -- no descriptor is free: the connection is given up, not the tables
    exact post_pure.2 (.inl ⟨rfl, rfl⟩)
  · intro d _ hfresh
    dsimp only
    unfold fillFdStruct
    rw [post_bind, post_modifySlot, post_bind, post_modifyFile, post_bind, post_modifySlot]
    generalize hw' : World.setSlot _ _ _ = w'
    have herrno : w'.errno = w.errno := by
      rw [← hw']
      rfl
    have htables : w'.tables = (w.tables.setFile d (Fd.socket d k)).setSlot i
        { w.sockets i with state := .accepted, connectionData := some d } := by
      rw [← hw']
      simp only [World.setSlot_tables, World.setFile_tables, World.setSlot_sockets,
        World.setSlot_files, World.setFile_sockets, World.setFile_files, Function.update_self,
        Tables.setFile_setSlot, Tables.setSlot_setSlot, Tables.setFile_setFile]
      rfl
    rw [post_ite]
    constructor
    · intro _
      apply post_onChip_bind
      intro _ c1
      apply post_onChip_bind
      intro _ c2
      exact post_pure.2 (.inr ⟨d, hfresh, rfl, herrno, htables⟩)
    · intro _
      exact post_pure.2 (.inr ⟨d, hfresh, rfl, herrno, htables⟩)

/-- `accept` leaves the tables, or fills a descriptor. -/
theorem effect_accept (h : Sound w.tables) (fd : ℤ) (wantAddr : Bool) :
    Post (accept B fuel fd wantAddr)
      (fun _ w' => Effect w.tables (.accept fd wantAddr : NetCall χ) w'.tables) w := by
  have hsame : Effect w.tables (.accept fd wantAddr : NetCall χ) w.tables := .turned .refl
  unfold accept
  rw [post_bind]
  apply post_getSocketFromFd
  · intro e
    exact post_pure.2 hsame
  · intro l i hfd _ hptr
    dsimp only
    rw [post_bind, post_getSlot]
    simp only [post_ite]
    refine ⟨fun _ => post_fail.2 hsame, fun hst => ⟨fun _ => post_fail.2 hsame, fun htype => ?_⟩⟩
    rw [post_bind]
    apply post_isNonblock
    intro dfd _
    unfold acceptLoop
    -- the loop leaves the tables until a connection is there
    refine Post.iter (fun _ w' => w.Same w') ?_ fuel .refl
    intro _ w1 hs
    rw [post_bind, post_getSlot]
    apply post_onChip_bind
    intro sr c2
    have hs2 := hs.trans (World.same_setChip (w := w1) c2)
    rw [post_ite]
    constructor
    · intro _
      rw [post_bind]
      refine (post_acceptEstablished B fuel (k := i) wantAddr ?_).mono ?_
      · rw [hs2.sockets]
        exact h.isocket i (.inl (by
          show (w.sockets i).state ≠ _
          rw [not_not.1 hst]
          exact fun hc => SocketState.noConfusion hc))
      · intro r w3 hr
        rw [post_pure]
        rcases hr with ⟨-, heq⟩ | ⟨d, hfresh, -, -, heq⟩
        · exact effect_of_same (heq.trans hs2.tables)
        · show Effect _ _ w3.tables
          rw [heq, hs2.tables, hs2.sockets, hfd]
          rw [hs2.files] at hfresh
          exact .accepted l i d hptr (not_not.1 hst) (not_not.1 htype) hfresh
    · intro _
      rw [post_ite]
      constructor
      · intro _
        refine post_fail.2 ?_
        show Effect w.tables (.accept fd wantAddr : NetCall χ) w1.tables
        exact effect_of_same hs.tables
      · intro _
        exact post_pure.2 hs2

/-! ## `close` -/

/-- A file structure is closed. -/
theorem post_releaseFile {d : Fin openMax} {Q : Unit → World χ φ → Prop}
    (hfd : (w.files d).fd = (d.val : ℤ)) :
    Post (releaseFile d) Q w ↔ Q () (w.setFile d (w.files d).closed) := by
  unfold releaseFile
  rw [post_bind, post_modifyFile, post_bind, post_get]
  have hfd' : ((w.setFile d { w.files d with isopen := false }).files d).fd = (d.val : ℤ) := by
    rw [World.setFile_files, Function.update_self]
    exact hfd
  rw [hfd', post_fileFree, World.setFile_files, Function.update_self]
  unfold World.setFile
  rw [Function.update_idem]
  rfl

/-- The descriptor of a slot is closed. -/
theorem effect_closeFdData (h : Sound w.tables) {d : Fin openMax}
    (hdata : (w.sockets i).fdData = some d) :
    Post (closeFdData B fuel i d) (fun r w' => r = 0 ∧ (w'.files d).isallocated = false ∧
      Effect w.tables (.close (d.val : ℤ) : NetCall χ) w'.tables) w := by
  have hisocket : (w.sockets i).isocket = i := h.isocket i (.inr ⟨d, .inl hdata⟩)
  unfold closeFdData
  rw [post_bind, post_getSlot, post_bind, post_releaseFile (h.number i d (.inl hdata)), post_bind,
    post_modifySlot, post_bind, post_getSlot, hisocket]
  simp only [World.setSlot_sockets, World.setFile_sockets, Function.update_self]
  rw [post_ite]
  constructor
  · intro hacc
    apply post_onChip_bind
    intro _ c1
    apply post_onChip_bind
    intro _ c2
    unfold socketFree
    rw [post_bind, post_modifySlot, post_pure]
    simp only [World.setSlot_tables, World.setChip_tables, World.setFile_tables,
      World.setSlot_files, World.setChip_files, World.setFile_files, World.setSlot_sockets,
      World.setChip_sockets, World.setFile_sockets, Function.update_self, Tables.setSlot_setSlot]
    exact ⟨trivial, rfl, .closed d i (.inl ⟨hdata, hacc⟩)⟩
  · intro hacc
    rw [post_pure]
    refine ⟨rfl, ?_, .closedListener d i hdata (not_not.1 hacc)⟩
    show (Function.update w.files d _ d).isallocated = false
    rw [Function.update_self]
    rfl

/-- The descriptor of a connection is closed. -/
theorem effect_closeConnectionData (h : Sound w.tables) {d : Fin openMax}
    (hconn : (w.sockets i).connectionData = some d) :
    Post (closeConnectionData B fuel i d) (fun r w' => r = 0 ∧ (w'.files d).isallocated = false ∧
      Effect w.tables (.close (d.val : ℤ) : NetCall χ) w'.tables) w := by
  have hisocket : (w.sockets i).isocket = i := h.isocket i (.inr ⟨d, .inr hconn⟩)
  unfold closeConnectionData
  rw [post_bind, post_getSlot, post_bind, post_releaseFile (h.number i d (.inr hconn)), post_bind,
    post_modifySlot, hisocket]
  apply post_onChip_bind
  intro _ c1
  apply post_onChip_bind
  intro _ c2
  rw [post_bind, post_getSlot]
  simp only [World.setSlot_sockets, World.setChip_sockets, World.setFile_sockets,
    Function.update_self]
  rw [post_ite]
  constructor
  · intro hdata
    unfold socketFree
    rw [post_bind, post_modifySlot, post_pure]
    simp only [World.setSlot_tables, World.setChip_tables, World.setFile_tables,
      World.setSlot_files, World.setChip_files, World.setFile_files, World.setSlot_sockets,
      World.setChip_sockets, World.setFile_sockets, Function.update_self, Tables.setSlot_setSlot]
    exact ⟨trivial, rfl, .closed d i (.inr ⟨hconn, hdata⟩)⟩
  · intro hdata
    rw [post_bind]
    apply post_relisten
    intro c3
    rw [post_pure]
    simp only [World.setSlot_tables, World.setChip_tables, World.setFile_tables,
      World.setSlot_files, World.setChip_files, World.setFile_files, World.setSlot_sockets,
      World.setChip_sockets, World.setFile_sockets, Function.update_self, Tables.setSlot_setSlot]
    exact ⟨trivial, rfl, .closedConnection d i hconn hdata⟩

/-- Closing a socket does one of the two. -/
theorem effect_sockClose (h : Sound w.tables) (fd : ℤ) :
    Post (sockClose B fuel fd)
      (fun _ w' => Effect w.tables (.close fd : NetCall χ) w'.tables) w := by
  -- a slot's pointer to an entry with this number is a pointer to this entry
  have hself : ∀ (i : Fin nSockets) (d d' : Fin openMax), fd = (d.val : ℤ) →
      (w.sockets i).Points d' → (w.files d').fd = fd → (d'.val : ℤ) = fd := by
    intro i d d' _ hd' hnum
    rw [← hnum]
    exact (h.number i d' hd').symm
  unfold sockClose
  rw [post_bind]
  apply post_getSocketFromFd
  · intro e
    exact post_pure.2 (.turned .refl)
  · intro d i hfd _ _
    dsimp only
    rw [post_bind, post_get]
    cases hdata : (w.sockets i).fdData.filter (fun d' => (w.files d').fd = fd) with
    | some d' =>
        obtain ⟨hd', hnum⟩ := Option.filter_eq_some_iff.1 hdata
        rw [← hself i d d' hfd (.inl hd') (by simpa using hnum)]
        exact (effect_closeFdData B fuel h hd').mono fun _ _ h' => h'.2.2
    | none =>
        dsimp only
        cases hconn : (w.sockets i).connectionData.filter (fun d' => (w.files d').fd = fd) with
        | some d' =>
            obtain ⟨hd', hnum⟩ := Option.filter_eq_some_iff.1 hconn
            rw [← hself i d d' hfd (.inr hd') (by simpa using hnum)]
            exact (effect_closeConnectionData B fuel h hd').mono fun _ _ h' => h'.2.2
        | none => exact post_fail.2 (.turned .refl)

end Effects

/-! ## The start -/

section Start

variable {χ φ : Type} (B : Board χ) (fuel : ℕ) {w : World χ φ}

/-- A slot as `socket_free` leaves it. -/
def Slot.Freed (s : Slot) : Prop :=
  s.fd = socketFreeFd ∧ s.state = .none ∧ s.fdData = none ∧ s.connectionData = none

/-- The loop at the start frees all slots. -/
theorem freed_forM (l : List (Fin nSockets)) :
    Post (l.forM socketFree) (fun _ w' => w'.files = w.files ∧
      ∀ i, i ∈ l ∨ (w.sockets i).Freed → (w'.sockets i).Freed) w := by
  induction l generalizing w with
  | nil =>
      refine post_pure.2 ⟨rfl, ?_⟩
      rintro i (hi | hi)
      · exact absurd hi List.not_mem_nil
      · exact hi
  | cons j l ih =>
      show Post (socketFree j >>= fun _ => l.forM socketFree) _ w
      rw [post_bind]
      unfold socketFree
      rw [post_modifySlot]
      refine ih.mono ?_
      rintro _ w' ⟨hfiles, hfreed⟩
      refine ⟨hfiles, fun i hi => hfreed i ?_⟩
      by_cases hij : i = j
      · subst hij
        right
        rw [World.setSlot_sockets, Function.update_self]
        exact ⟨rfl, rfl, rfl, rfl⟩
      · rw [World.setSlot_sockets, Function.update_of_ne hij]
        rcases hi with hi | hi
        · exact .inl ((List.mem_cons.1 hi).resolve_left hij)
        · exact .inr hi

/-- `w5100_socket_init` frees every slot. -/
theorem freed_socketInit (static : Option StaticIp) :
    Post (socketInit B fuel static)
      (fun _ w' => w'.files = w.files ∧ ∀ i, (w'.sockets i).Freed) w := by
  unfold socketInit
  apply post_onChip_bind
  intro _ c1
  rw [post_bind]
  refine (freed_forM _).mono ?_
  rintro _ w2 ⟨hfiles, hfreed⟩
  apply post_onChip_of_forall
  intro _ c3
  exact ⟨hfiles, fun i => hfreed i (.inl (List.mem_finRange i))⟩

end Start

/-! ## All calls -/

section Exec

variable {χ κ δ ψ : Type} (B : Board χ) (L : Fat.FatLib κ δ ψ) (fuel : ℕ)
  {w w' : World χ (Fat.FatFs κ δ ψ)}

/-- A call on a descriptor fails, or finds it open. -/
theorem post_withOpen {α : Type} {fd : ℤ} {err : α}
    {body : Fin openMax → Fd → Fat.FatSys χ κ δ ψ α} {Q : α → World χ (Fat.FatFs κ δ ψ) → Prop}
    (hbad : Q err (w.setErrno .EBADF))
    (hopen : ∀ d : Fin openMax, fd = (d.val : ℤ) → (w.files d).isopen = true →
      Post (body d (w.files d)) Q w) : Post (withOpen fd err body) Q w := by
  unfold withOpen
  rw [post_bind]
  apply post_fileStructGet
  · intro _
    exact post_fail.2 hbad
  · intro d hd
    dsimp only
    rw [post_bind, post_get, post_ite]
    constructor
    · intro _
      exact post_fail.2 hbad
    · intro hc
      exact hopen d hd (by simpa using hc)

/-- `close` passes the call on. -/
theorem effect_sysClose (h : Sound w.tables) (fd : ℤ) :
    Post (sysClose B L fuel fd)
      (fun _ w' => Effect w.tables (.close fd : NetCall χ) w'.tables) w := by
  unfold sysClose
  apply post_withOpen
  · exact .turned .refl
  · intro d hfd _
    have hconsole : ∀ hne : (w.files d).close ≠ some .w5100, Effect w.tables
        (.close fd : NetCall χ) (w.setFile d { w.files d with isopen := false }).tables := by
      intro hne
      rw [hfd]
      exact .console d hne
    cases hclose : (w.files d).close with
    | none =>
        dsimp only
        rw [post_bind, post_modifyFile, post_pure]
        exact hconsole (by rw [hclose]; exact (Option.some_ne_none _).symm)
    | some driver =>
        cases driver with
        | fatfs => exact absurd hclose (h.drivers d)
        | w5100 => exact effect_sockClose B fuel h fd
        | usart =>
            dsimp only
            rw [post_bind, post_modifyFile, post_pure]
            exact hconsole (by rw [hclose]; exact fun hc => Driver.noConfusion (Option.some.inj hc))

/-- **What a call does to the tables**, whatever the chip answers. -/
theorem effect_exec (h : Sound w.tables) (call : ℕ × NetCall χ) :
    Post (NetCall.exec B L call) (fun _ w' => Effect w.tables call.2 w'.tables) w := by
  obtain ⟨fuel, call⟩ := call
  cases call with
  | socket domain type protocol => exact effect_socket B domain type protocol
  | bind fd addr => exact (turned_bind B fuel fd addr).mono fun _ _ h' => .turned h'
  | connect fd addr => exact (turned_connect B fuel fd addr).mono fun _ _ h' => .turned h'
  | listen fd => exact (turned_listen B fuel fd).mono fun _ _ h' => .turned h'
  | accept fd wantAddr =>
      show Post (W5100.accept B fuel fd wantAddr >>= _) _ w
      rw [post_bind]
      exact (effect_accept B fuel h fd wantAddr).mono fun _ _ h' => post_pure.2 h'
  | send fd buf => exact (turned_send B fuel fd buf).mono fun _ _ h' => .turned h'
  | sendto fd buf dest => exact (turned_sendto B fuel fd buf dest).mono fun _ _ h' => .turned h'
  | recv fd len =>
      show Post (W5100.recv B fuel fd len >>= _) _ w
      rw [post_bind]
      exact (turned_recvfrom B fuel fd len false).mono fun _ _ h' => post_pure.2 (.turned h')
  | recvfrom fd len wantAddr =>
      show Post (W5100.recvfrom B fuel fd len wantAddr >>= _) _ w
      rw [post_bind]
      exact (turned_recvfrom B fuel fd len wantAddr).mono fun _ _ h' => post_pure.2 (.turned h')
  | setsockopt fd solSocket option =>
      exact (turned_setsockopt fd solSocket option).mono fun _ _ h' => .turned h'
  | fcntl fd cmd => exact (turned_fcntl fd cmd).mono fun _ _ h' => .turned h'
  | poll fd events =>
      show Post (pollOne B fd events >>= _) _ w
      rw [post_bind]
      exact (same_pollOne B fd events).mono fun _ _ h' => post_pure.2 (effect_of_same h'.tables)
  | close fd => exact effect_sysClose B L fuel h fd
  | event chip =>
      show Post (modify _ >>= _) _ w
      rw [post_bind, post_modify, post_pure]
      exact .turned .refl

/-! ## Runs -/

/-- The tables before `w5100_socket_init`. -/
def bootWorld (chip : χ) (fat : Fat.FatFs κ δ ψ) : World χ (Fat.FatFs κ δ ψ) where
  files := stdioInit
  sockets _ := .zero
  errno := none
  chip := chip
  fat := fat

theorem close_stdioInit (d : Fin openMax) : (stdioInit d).close = none := by
  unfold stdioInit stdioFd
  split_ifs <;> rfl

/-- **The tables are sound at the start**. -/
theorem sound_start {T : Tables} (hfiles : T.files = stdioInit)
    (hfreed : ∀ i, (T.sockets i).Freed) : Sound T := by
  have hnone : ∀ i d, ¬ (T.sockets i).Points d := by
    rintro i d (hd | hd)
    · rw [(hfreed i).2.2.1] at hd
      exact Option.some_ne_none d hd.symm
    · rw [(hfreed i).2.2.2] at hd
      exact Option.some_ne_none d hd.symm
  constructor
  · rintro i (hst | ⟨d, hd⟩)
    · exact absurd (hfreed i).2.1 hst
    · exact absurd hd (hnone i d)
  · exact fun i d hd => absurd hd (hnone i d)
  · intro d
    rw [hfiles, close_stdioInit]
    exact (Option.some_ne_none _).symm

/-- **Invariants of the tables along runs**: what holds when all slots are free and is kept
by every effect of a call that `ok` allows. -/
theorem tables_of_run {ok : World χ (Fat.FatFs κ δ ψ) → ℕ × NetCall χ → Prop}
    {I : Tables → Prop} {static : Option StaticIp} {chip : χ} {fat : Fat.FatFs κ δ ψ}
    {w₀ : World χ (Fat.FatFs κ δ ψ)}
    (hinit : socketInit B fuel static (bootWorld chip fat) = .ok ((), w₀))
    (hrun : Run (NetCall.exec B L) ok w₀ w)
    (hstart : ∀ T, T.files = stdioInit → (∀ i, (T.sockets i).Freed) → I T)
    (hstep : ∀ w call T', Sound w.tables → I w.tables → ok w call →
      Effect w.tables call.2 T' → I T') :
    Sound w.tables ∧ I w.tables := by
  obtain ⟨hfiles, hfreed⟩ := freed_socketInit B fuel static _ _ hinit
  refine hrun.invariant (I := fun w => Sound w.tables ∧ I w.tables)
    ⟨sound_start hfiles hfreed, hstart _ hfiles hfreed⟩ ?_
  rintro w1 call ⟨hsound, hI⟩ hok
  refine (effect_exec B L hsound call).mono fun _ w2 he => ?_
  exact ⟨hsound.effect he, hstep w1 call _ hsound hI hok he⟩

end Exec

end W5100

end Nucleo
