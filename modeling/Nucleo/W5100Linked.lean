/-
# Slots and descriptors stay linked

Slots point to allocated descriptors that point back to them (`Linked`), in every state that
calls reach, also where a descriptor has been left without a slot.  A descriptor that `accept`
gave out belongs to the slot of its connection until it is closed (`ForConnection`).
-/
import Nucleo.W5100Effects

namespace Nucleo

namespace W5100

/-- Slots point to descriptors of their own, to two different ones, and a slot with the
descriptor of a connection was accepted once. -/
structure Linked (T : Tables) : Prop where
  points : ∀ i d, (T.sockets i).Points d →
    (T.files d).isallocated = true ∧ (T.files d).opaquePtr = .slot i
  distinct : ∀ i d, (T.sockets i).fdData = some d → (T.sockets i).connectionData ≠ some d
  accepted : ∀ i, (T.sockets i).connectionData ≠ none → (T.sockets i).state = .accepted ∨
    (T.sockets i).state = .listening ∨ (T.sockets i).state = .disconnected

section Tables

variable {T T' : Tables} {d : Fin openMax} {i : Fin nSockets}

/-- A slot goes on pointing to what it pointed to, or to less. -/
theorem Linked.setSlot (h : Linked T) {s : Slot} (hdata : s.fdData = none ∨
      s.fdData = (T.sockets i).fdData)
    (hconn : s.connectionData = none ∨ s.connectionData = (T.sockets i).connectionData)
    (hacc : s.connectionData ≠ none → s.state = .accepted ∨ s.state = .listening ∨
      s.state = .disconnected) : Linked (T.setSlot i s) := by
  have hpoints : ∀ d, s.Points d → (T.sockets i).Points d := by
    rintro d (hd | hd)
    · rcases hdata with hnone | heq
      · exact absurd (hd.symm.trans hnone) (Option.some_ne_none d)
      · exact .inl (heq ▸ hd)
    · rcases hconn with hnone | heq
      · exact absurd (hd.symm.trans hnone) (Option.some_ne_none d)
      · exact .inr (heq ▸ hd)
  constructor
  · intro j d hd
    by_cases hj : j = i
    · subst hj
      rw [Tables.setSlot_sockets_self] at hd
      exact h.points j d (hpoints d hd)
    · rw [Tables.setSlot_sockets_of_ne _ _ hj] at hd
      exact h.points j d hd
  · intro j d hd
    by_cases hj : j = i
    · subst hj
      rw [Tables.setSlot_sockets_self] at hd ⊢
      intro hd'
      rcases hdata with hnone | heq
      · exact Option.some_ne_none d (hd.symm.trans hnone)
      · rcases hconn with hnone | heq'
        · exact Option.some_ne_none d (hd'.symm.trans hnone)
        · exact h.distinct j d (heq ▸ hd) (heq' ▸ hd')
    · rw [Tables.setSlot_sockets_of_ne _ _ hj] at hd ⊢
      exact h.distinct j d hd
  · intro j hj'
    by_cases hj : j = i
    · subst hj
      rw [Tables.setSlot_sockets_self] at hj' ⊢
      exact hacc hj'
    · rw [Tables.setSlot_sockets_of_ne _ _ hj] at hj' ⊢
      exact h.accepted j hj'

/-- An entry that no slot points to, or that stays allocated to its slot. -/
theorem Linked.setFile (h : Linked T) {f : Fd} (hf : (∀ j, ¬ (T.sockets j).Points d) ∨
      f.isallocated = (T.files d).isallocated ∧ f.opaquePtr = (T.files d).opaquePtr) :
    Linked (T.setFile d f) := by
  refine ⟨fun j d' hd' => ?_, h.distinct, h.accepted⟩
  by_cases hdd : d' = d
  · subst hdd
    rw [Tables.setFile_files_self]
    rcases hf with hno | ⟨halloc, hptr⟩
    · exact absurd hd' (hno j)
    · rw [halloc, hptr]
      exact h.points j d' hd'
  · rw [Tables.setFile_files_of_ne _ _ hdd]
    exact h.points j d' hd'

/-- A descriptor that has been allocated now is pointed to by no slot. -/
theorem Linked.not_points (h : Linked T) (hfresh : (T.files d).isallocated = false)
    (j : Fin nSockets) : ¬ (T.sockets j).Points d := by
  intro hd
  rw [(h.points j d hd).1] at hfresh
  exact Bool.noConfusion hfresh

/-! ## Descriptors that come and go -/

/-- A new descriptor of the slot `i`. -/
theorem Linked.adopt (h : Linked T) {s : Slot} (hfresh : (T.files d).isallocated = false)
    (hpoints : ∀ d', s.Points d' → (T.sockets i).Points d' ∨ d' = d)
    (hdistinct : ∀ d', s.fdData = some d' → s.connectionData ≠ some d')
    (hacc : s.connectionData ≠ none → s.state = .accepted ∨ s.state = .listening ∨
      s.state = .disconnected) : Linked ((T.setFile d (Fd.socket d i)).setSlot i s) := by
  constructor
  · intro j d' hd'
    rw [Tables.setSlot_files]
    by_cases hdd : d' = d
    · subst hdd
      rw [Tables.setFile_files_self]
      refine ⟨rfl, ?_⟩
      by_cases hj : j = i
      · rw [hj]
        rfl
      · rw [Tables.setSlot_sockets_of_ne _ _ hj] at hd'
        exact absurd hd' (h.not_points hfresh j)
    · rw [Tables.setFile_files_of_ne _ _ hdd]
      by_cases hj : j = i
      · subst hj
        rw [Tables.setSlot_sockets_self] at hd'
        exact h.points j d' ((hpoints d' hd').resolve_right hdd)
      · rw [Tables.setSlot_sockets_of_ne _ _ hj] at hd'
        exact h.points j d' hd'
  · intro j d' hd'
    by_cases hj : j = i
    · subst hj
      rw [Tables.setSlot_sockets_self] at hd' ⊢
      exact hdistinct d' hd'
    · rw [Tables.setSlot_sockets_of_ne _ _ hj] at hd' ⊢
      exact h.distinct j d' hd'
  · intro j hj'
    by_cases hj : j = i
    · subst hj
      rw [Tables.setSlot_sockets_self] at hj' ⊢
      exact hacc hj'
    · rw [Tables.setSlot_sockets_of_ne _ _ hj] at hj' ⊢
      exact h.accepted j hj'

/-- A descriptor that its slot gives up. -/
theorem Linked.release (h : Linked T) {s : Slot} {f : Fd} (hd : (T.sockets i).Points d)
    (hs : ¬ s.Points d) (hdata : s.fdData = none ∨ s.fdData = (T.sockets i).fdData)
    (hconn : s.connectionData = none ∨ s.connectionData = (T.sockets i).connectionData)
    (hacc : s.connectionData ≠ none → s.state = .accepted ∨ s.state = .listening ∨
      s.state = .disconnected) : Linked ((T.setFile d f).setSlot i s) := by
  rw [← Tables.setFile_setSlot]
  refine (h.setSlot hdata hconn hacc).setFile (.inl fun j hj' => ?_)
  by_cases hj : j = i
  · subst hj
    rw [Tables.setSlot_sockets_self] at hj'
    exact hs hj'
  · -- a descriptor points to one slot
    rw [Tables.setSlot_sockets_of_ne _ _ hj] at hj'
    exact hj (Opaque.slot.inj ((h.points j d hj').2.symm.trans (h.points i d hd).2))

/-! ## Turns and effects -/

theorem Linked.turn (h : Linked T) (ht : Turn T T') : Linked T' := by
  cases ht with
  | slot i s hs =>
      refine h.setSlot (.inr hs.fdData) (.inr hs.connectionData) fun hne => ?_
      rw [hs.connectionData] at hne
      have hbefore := h.accepted i hne
      rcases hs.state with heq | hnext
      · rw [heq]
        exact hbefore
      · generalize s.state = st at hnext
        cases hnext with
        | bound hst => simp [hst] at hbefore
        | connected hst _ => simp [hst] at hbefore
        | listening hst _ => exact .inr (.inl rfl)
        | relistening _ _ => exact .inr (.inl rfl)
        | disconnected _ _ => exact .inr (.inr rfl)
  | flags d df sf => exact h.setFile (.inr ⟨rfl, rfl⟩)

/-- **Slots and descriptors stay linked**, whatever is called. -/
theorem Linked.effect {χ : Type} {call : NetCall χ} (h : Linked T) (he : Effect T call T') :
    Linked T' := by
  -- one case for each thing that a call can do to the tables
  cases he with
  | turned ht =>
      induction ht with
      | refl => exact h
      | tail _ hlast ih => exact ih.turn hlast
  | refused i hfd => exact h.setSlot (.inl rfl) (.inl rfl) fun hne => absurd rfl hne
  | created i d hfd hfresh =>
      refine h.adopt hfresh ?_ (fun _ _ => (Option.some_ne_none _).symm) fun hne => absurd rfl hne
      rintro d' (hd' | hd')
      · exact .inr (Option.some.inj hd').symm
      · exact absurd hd'.symm (Option.some_ne_none d')
  | accepted l i d hptr hst htype hfresh =>
      refine h.adopt hfresh ?_ ?_ fun _ => .inl rfl
      · rintro d' (hd' | hd')
        · exact .inl (.inl hd')
        · exact .inr (Option.some.inj hd').symm
      · intro d' hd' hsame
        have hdd : d = d' := Option.some.inj hsame
        subst hdd
        exact h.not_points hfresh i (.inl hd')
  | console d hclose => exact h.setFile (.inr ⟨rfl, rfl⟩)
  | closed d i hwhich =>
      have hd : (T.sockets i).Points d := hwhich.imp (fun h => h.1) fun h => h.1
      exact h.release hd (Slot.released_not_points _ d) (.inl rfl) (.inl rfl)
        fun hne => absurd rfl hne
  | closedListener d i hdata hst =>
      refine h.release (.inl hdata) ?_ (.inl rfl) (.inr rfl) fun _ => .inl hst
      rintro (hd | hd)
      · exact Option.some_ne_none d hd.symm
      · exact h.distinct i d hdata hd
  | closedConnection d i hconn hdata =>
      refine h.release (.inr hconn) ?_ (.inr rfl) (.inl rfl) fun hne => absurd rfl hne
      rintro (hd | hd)
      · exact h.distinct i d hd hconn
      · exact Option.some_ne_none d hd.symm

/-! ## The start -/

theorem linked_start (hfreed : ∀ i, (T.sockets i).Freed) : Linked T := by
  constructor
  · rintro i d (hd | hd)
    · rw [(hfreed i).2.2.1] at hd
      exact absurd hd.symm (Option.some_ne_none d)
    · rw [(hfreed i).2.2.2] at hd
      exact absurd hd.symm (Option.some_ne_none d)
  · intro i d hd
    rw [(hfreed i).2.2.1] at hd
    exact absurd hd.symm (Option.some_ne_none d)
  · exact fun i hne => absurd (hfreed i).2.2.2 hne

/-! ### The descriptor of a connection -/

/-- The descriptor is allocated to the slot `i`, and no slot's own. -/
structure ForConnection (T : Tables) (d : Fin openMax) (i : Fin nSockets) : Prop where
  isallocated : (T.files d).isallocated = true
  opaquePtr : (T.files d).opaquePtr = .slot i
  notOwn : ∀ j, (T.sockets j).fdData ≠ some d

theorem ForConnection.setSlot (h : ForConnection T d i) {j : Fin nSockets} {s : Slot}
    (hs : s.fdData ≠ some d) : ForConnection (T.setSlot j s) d i := by
  refine ⟨h.isallocated, h.opaquePtr, fun k => ?_⟩
  by_cases hk : k = j
  · subst hk
    rw [Tables.setSlot_sockets_self]
    exact hs
  · rw [Tables.setSlot_sockets_of_ne _ _ hk]
    exact h.notOwn k

theorem ForConnection.setFile (h : ForConnection T d i) {d' : Fin openMax} {f : Fd}
    (hf : d = d' → f.isallocated = true ∧ f.opaquePtr = (T.files d').opaquePtr) :
    ForConnection (T.setFile d' f) d i := by
  by_cases hdd : d = d'
  · obtain ⟨halloc, hptr⟩ := hf hdd
    subst hdd
    refine ⟨?_, ?_, h.notOwn⟩
    · rw [Tables.setFile_files_self]
      exact halloc
    · rw [Tables.setFile_files_self, hptr]
      exact h.opaquePtr
  · refine ⟨?_, ?_, h.notOwn⟩
    · rw [Tables.setFile_files_of_ne _ _ hdd]
      exact h.isallocated
    · rw [Tables.setFile_files_of_ne _ _ hdd]
      exact h.opaquePtr

theorem ForConnection.turn (h : ForConnection T d i) (ht : Turn T T') : ForConnection T' d i := by
  cases ht with
  | slot j s hs =>
      refine h.setSlot ?_
      rw [hs.fdData]
      exact h.notOwn j
  | flags d' df sf =>
      refine h.setFile fun hdd => ⟨?_, rfl⟩
      rw [← hdd]
      exact h.isallocated

/-- A descriptor of a connection stays one until it is closed. -/
theorem ForConnection.effect {χ : Type} {call : NetCall χ} (h : ForConnection T d i)
    (he : Effect T call T') (halloc : (T'.files d).isallocated = true) :
    ForConnection T' d i := by
  have hfresh : ∀ d', (T.files d').isallocated = false → d ≠ d' := by
    rintro d' hfresh rfl
    rw [h.isallocated] at hfresh
    exact Bool.noConfusion hfresh
  -- a descriptor that is given up is another one
  have hclosed : ∀ (d' : Fin openMax) (i' : Fin nSockets) (s : Slot), s.fdData ≠ some d →
      (((T.setFile d' (T.files d').closed).setSlot i' s).files d).isallocated = true →
      ForConnection ((T.setFile d' (T.files d').closed).setSlot i' s) d i := by
    intro d' i' s hs halloc
    refine (h.setFile fun hdd => ?_).setSlot hs
    subst hdd
    rw [Tables.setSlot_files, Tables.setFile_files_self] at halloc
    exact Bool.noConfusion halloc
  cases he with
  | turned ht =>
      clear halloc hfresh hclosed
      induction ht with
      | refl => exact h
      | tail _ hlast ih => exact ih.turn hlast
  | refused i' hfd => exact h.setSlot (Option.some_ne_none d).symm
  | created i' d' hfd hd' =>
      refine (h.setFile fun hdd => absurd hdd (hfresh d' hd')).setSlot fun hc => ?_
      exact hfresh d' hd' (Option.some.inj hc).symm
  | accepted l i' d' hptr hst htype hd' =>
      exact (h.setFile fun hdd => absurd hdd (hfresh d' hd')).setSlot (h.notOwn i')
  | console d' hclose =>
      refine h.setFile fun hdd => ⟨?_, rfl⟩
      rw [← hdd]
      exact h.isallocated
  | closed d' i' hwhich => exact hclosed d' i' _ (Option.some_ne_none d).symm halloc
  | closedListener d' i' hdata hst => exact hclosed d' i' _ (Option.some_ne_none d).symm halloc
  | closedConnection d' i' hconn hdata => exact hclosed d' i' _ (h.notOwn i') halloc

/-- The descriptor that `accept` gives out is one of a connection. -/
theorem forConnection_accept {χ : Type} {fd : ℤ} {wantAddr : Bool} (h : Linked T)
    (he : Effect T (.accept fd wantAddr : NetCall χ) T')
    (hfresh : (T.files d).isallocated = false) (halloc : (T'.files d).isallocated = true) :
    ∃ i, ForConnection T' d i := by
  cases he with
  | turned ht =>
      -- turns allocate nothing, so this is not how `d` was given out
      have hsame : (T'.files d).isallocated = (T.files d).isallocated := by
        clear halloc
        induction ht with
        | refl => rfl
        | tail _ hlast ih =>
            rw [← ih]
            cases hlast with
            | slot j s hs => rfl
            | flags d' df sf =>
                by_cases hdd : d = d'
                · subst hdd
                  rw [Tables.setFile_files_self]
                · rw [Tables.setFile_files_of_ne _ _ hdd]
      rw [hsame, hfresh] at halloc
      exact Bool.noConfusion halloc
  | accepted l i d' hptr hst htype hd' =>
      -- `d` is the descriptor that the effect allocates
      have hdd : d = d' := by
        by_contra hne
        rw [Tables.setSlot_files, Tables.setFile_files_of_ne _ _ hne, hfresh] at halloc
        exact Bool.noConfusion halloc
      subst hdd
      refine ⟨i, ?_, ?_, fun j => ?_⟩
      · rw [Tables.setSlot_files, Tables.setFile_files_self]
        rfl
      · rw [Tables.setSlot_files, Tables.setFile_files_self]
        rfl
      · have hno : ∀ j, (T.sockets j).fdData ≠ some d :=
          fun j hd => h.not_points hfresh j (.inl hd)
        by_cases hj : j = i
        · subst hj
          rw [Tables.setSlot_sockets_self]
          exact hno j
        · rw [Tables.setSlot_sockets_of_ne _ _ hj]
          exact hno j

end Tables

end W5100

end Nucleo
