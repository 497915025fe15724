/-
# Only streams listen and connect

A slot that listens or is connected, and one that has the descriptor of a connection, is a
stream's (`Slot.Typed`): `listen`, `accept` and `connect_tcp` are behind a test of the type,
and the way back to `LISTENING` starts from an accepted connection.  All of that is in the effects
of the calls, so every effect keeps the slots typed, and `typed_of_run` says so of every state
reached.
-/
import Nucleo.W5100Effects

namespace Nucleo

namespace W5100

open Comp

/-- What the state of a slot and its connection say about its type. -/
structure Slot.Typed (s : Slot) : Prop where
  state : s.state = .listening ∨ s.state = .accepted ∨ s.state = .connected → s.type = .stream
  connection : s.connectionData ≠ none → s.type = .stream

/-- The slots are typed. -/
def TypedSlots (T : Tables) : Prop := ∀ i, (T.sockets i).Typed

/-- A slot of a stream is typed whatever its state is. -/
theorem Slot.typed_of_stream {s : Slot} (h : s.type = .stream) : s.Typed :=
  ⟨fun _ => h, fun _ => h⟩

/-- A slot that has no connection, in a state that says nothing about its type. -/
theorem Slot.typed_of_idle {s : Slot} (hst : s.state = .none ∨ s.state = .created)
    (hconn : s.connectionData = none) : s.Typed := by
  refine ⟨fun hs => ?_, fun hne => absurd hconn hne⟩
  rcases hst with hst | hst
  · rw [hst] at hs
    simp at hs
  · rw [hst] at hs
    simp at hs

/-- A slot that turns goes on being typed. -/
theorem Slot.Typed.turns {s s' : Slot} (h : s.Typed) (ht : s.Turns s') : s'.Typed := by
  refine ⟨fun hs' => ?_, fun hne => ?_⟩
  · rw [ht.type]
    rcases ht.state with heq | hnext
    · rw [heq] at hs'
      exact h.state hs'
    · generalize s'.state = st at hs' hnext
      cases hnext with
      | bound _ => simp at hs'
      | connected _ htype => exact htype
      | listening _ htype => exact htype
      | relistening hst _ => exact h.state (.inr (.inl hst))
      | disconnected _ _ => simp at hs'
  · rw [ht.connectionData] at hne
    rw [ht.type]
    exact h.connection hne

/-- One slot gets typed contents. -/
theorem TypedSlots.setSlot {T : Tables} (h : TypedSlots T) {i : Fin nSockets} {s : Slot}
    (hs : s.Typed) : TypedSlots (T.setSlot i s) := by
  intro j
  by_cases hji : j = i
  · subst hji
    rw [Tables.setSlot_sockets_self]
    exact hs
  · rw [Tables.setSlot_sockets_of_ne _ _ hji]
    exact h j

theorem TypedSlots.turn {T T' : Tables} (h : TypedSlots T) (ht : Turn T T') : TypedSlots T' := by
  cases ht with
  | slot i s hs => exact h.setSlot ((h i).turns hs)
  | flags d df sf => exact h

/-- Every call keeps the slots typed. -/
theorem TypedSlots.effect {χ : Type} {T T' : Tables} {call : NetCall χ} (h : TypedSlots T)
    (he : Effect T call T') : TypedSlots T' := by
  cases he with
  | turned ht =>
      induction ht with
      | refl => exact h
      | tail _ hlast ih => exact ih.turn hlast
  | refused i _ => exact h.setSlot (Slot.typed_of_idle (.inl rfl) rfl)
  | @created _ type _ i d _ _ =>
      have hs : ((T.sockets i).created i type d).Typed := Slot.typed_of_idle (.inr rfl) rfl
      exact TypedSlots.setSlot (T := T.setFile d _) h hs
  | accepted l i d _ _ htype _ =>
      refine TypedSlots.setSlot (T := T.setFile d _) h (Slot.typed_of_stream ?_)
      exact htype
  | console d _ => exact h
  | closed d i _ =>
      have hs : (T.sockets i).released.Typed := Slot.typed_of_idle (.inl rfl) rfl
      exact TypedSlots.setSlot (T := T.setFile d _) h hs
  | closedListener d i _ _ =>
      exact TypedSlots.setSlot (T := T.setFile d _) h ⟨(h i).state, (h i).connection⟩
  | closedConnection d i hconn _ =>
      -- the slot of a connection is a stream's
      have hne : (T.sockets i).connectionData ≠ none := by
        rw [hconn]
        exact Option.some_ne_none d
      refine TypedSlots.setSlot (T := T.setFile d _) h (Slot.typed_of_stream ?_)
      exact (h i).connection hne

/-- Free slots are typed. -/
theorem typed_start {T : Tables} (hfreed : ∀ i, (T.sockets i).Freed) : TypedSlots T :=
  fun i => Slot.typed_of_idle (.inl (hfreed i).2.1) (hfreed i).2.2.2

/-- **Only streams listen and connect**, in every state that calls and events reach from
`w5100_socket_init`. -/
theorem typed_of_run {χ κ δ ψ : Type} (B : Board χ) (L : Fat.FatLib κ δ ψ) (fuel : ℕ)
    {w w₀ : World χ (Fat.FatFs κ δ ψ)}
    {ok : World χ (Fat.FatFs κ δ ψ) → ℕ × NetCall χ → Prop}
    {static : Option StaticIp} {chip : χ} {fat : Fat.FatFs κ δ ψ}
    (hinit : socketInit B fuel static (bootWorld chip fat) = .ok ((), w₀))
    (hrun : Run (NetCall.exec B L) ok w₀ w) : TypedSlots w.tables :=
  (tables_of_run B L fuel (I := TypedSlots) hinit hrun (fun _ _ hfreed => typed_start hfreed)
    fun _ _ _ _ h _ he => h.effect he).2

end W5100

end Nucleo
