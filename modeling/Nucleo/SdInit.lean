/-
# When the drive is ready

`disk_status` and the guards of the transfers look at flags that only a successful
`disk_initialize` writes.  A failed attempt leaves them as they are, so a drive that was
initialised once stays usable in the eyes of the program when a later attempt fails
(`consistent_iff`).  Its addressing mode may then be the one that the failed attempt has
stored (`replaced_card_stays_ready`).
-/
import Nucleo.SdDisk

namespace Nucleo

namespace Sd

open Comp

/-- No bit that says the drive cannot be used; `STA_PROTECT` only forbids to write. -/
def DStatus.usable : DStatus → Bool
  | .ok | .protect => true
  | .noinit | .nodisk => false

section Ready

variable {χ : Type} (B : SpiBoard χ)

/-! ## Ready drives -/

/-- The drive is reported usable, and the calls get past their guards. -/
structure Ready (pdrv : ℕ) (d : Disk χ) : Prop where
  status : (diskStatus pdrv d).usable = true
  read : ∀ fuel sector count,
    diskRead B fuel pdrv sector count d = readBody B fuel sector count d.drive d
  write : ∀ fuel buff sector count,
    diskWrite B fuel pdrv buff sector count d = writeBody B fuel buff sector count d.drive d
  ioctl : ∀ cmd, diskIoctl pdrv cmd d = .ok (ioctlBody cmd, d)

/-- The drive is not reported usable, and the calls fail at their guards: no byte is sent,
so no addressing mode is used. -/
structure NotReady (pdrv : ℕ) (d : Disk χ) : Prop where
  status : (diskStatus pdrv d).usable = false
  read : ∃ r, r ≠ .ok ∧ ∀ fuel sector count,
    diskRead B fuel pdrv sector count d = .ok ((r, []), d)
  write : ∃ r, r ≠ .ok ∧ ∀ fuel buff sector count,
    diskWrite B fuel pdrv buff sector count d = .ok (r, d)
  ioctl : ∃ r, r ≠ .ok ∧ ∀ cmd, diskIoctl pdrv cmd d = .ok ((r, none), d)

/-- The flags that the guards look at. -/
def Marked (pdrv : ℕ) (p : Pdrv) : Prop :=
  pdrv < nPdrv ∧ p.initialized = true ∧ p.present = true

instance (pdrv : ℕ) (p : Pdrv) : Decidable (Marked pdrv p) :=
  inferInstanceAs (Decidable (_ ∧ _ ∧ _))

variable {B} {pdrv : ℕ} {d : Disk χ}

/-- `disk_status` tells whether the drive is marked. -/
theorem usable_diskStatus : (diskStatus pdrv d).usable = true ↔ Marked pdrv d.drive := by
  unfold diskStatus Marked
  by_cases hp : pdrv < nPdrv
  · rw [if_pos hp]
    cases hi : d.drive.initialized with
    | false => simp [DStatus.usable]
    | true =>
        cases hq : d.drive.present with
        | false => simp [DStatus.usable]
        | true =>
            cases d.drive.writeProtected with
            | false => simp [DStatus.usable, hp]
            | true => simp [DStatus.usable, hp]
  · rw [if_neg hp]
    exact ⟨fun h => Bool.noConfusion h, fun h => absurd h.1 hp⟩

/-- A marked drive is used. -/
theorem whenReady_of_marked {α : Type} (h : Marked pdrv d.drive) (refuse : DResult → α)
    (body : Pdrv → Comp (Disk χ) Stop α) : whenReady pdrv refuse body d = body d.drive d := by
  unfold whenReady
  rw [bind_of_ok (show (get : Comp (Disk χ) Stop _) d = .ok (d, d) from rfl)]
  rw [if_neg (not_le.2 h.1), if_neg (not_not.2 h.2.1), if_neg (not_not.2 h.2.2)]

/-- The result of the guard that fails. -/
def refusal (pdrv : ℕ) (p : Pdrv) : DResult :=
  if pdrv ≥ nPdrv then .error else if ¬ p.initialized then .notrdy else .error

/-- A refusal is no success. -/
theorem refusal_ne_ok (pdrv : ℕ) (p : Pdrv) : refusal pdrv p ≠ .ok := by
  unfold refusal
  split_ifs <;> exact DResult.noConfusion

/-- Another one is refused, and nothing is done. -/
theorem whenReady_of_not_marked {α : Type} (h : ¬ Marked pdrv d.drive) (refuse : DResult → α)
    (body : Pdrv → Comp (Disk χ) Stop α) :
    whenReady pdrv refuse body d = .ok (refuse (refusal pdrv d.drive), d) := by
  unfold whenReady refusal
  rw [bind_of_ok (show (get : Comp (Disk χ) Stop _) d = .ok (d, d) from rfl)]
  by_cases hp : pdrv ≥ nPdrv
  · rw [if_pos hp, if_pos hp]
    rfl
  · rw [if_neg hp, if_neg hp]
    by_cases hi : d.drive.initialized = true
    · rw [if_neg (not_not.2 hi), if_neg (not_not.2 hi),
        if_pos (show ¬ d.drive.present = true from fun hq => h ⟨not_le.1 hp, hi, hq⟩)]
      rfl
    · rw [if_pos hi, if_pos hi]
      rfl

/-- A marked drive is ready for every call. -/
theorem ready_of_marked (h : Marked pdrv d.drive) : Ready B pdrv d where
  status := usable_diskStatus.2 h
  read _ _ _ := whenReady_of_marked h _ _
  write _ _ _ _ := whenReady_of_marked h _ _
  ioctl _ := whenReady_of_marked h _ _

/-- Another one is ready for none. -/
theorem notReady_of_not_marked (h : ¬ Marked pdrv d.drive) : NotReady B pdrv d where
  status := Bool.eq_false_iff.2 fun hu => h (usable_diskStatus.1 hu)
  read := ⟨_, refusal_ne_ok pdrv d.drive, fun _ _ _ => whenReady_of_not_marked h _ _⟩
  write := ⟨_, refusal_ne_ok pdrv d.drive, fun _ _ _ _ => whenReady_of_not_marked h _ _⟩
  ioctl := ⟨_, refusal_ne_ok pdrv d.drive, fun _ => whenReady_of_not_marked h _ _⟩

end Ready

/-! ## Runs -/

section Runs

variable {χ : Type} (B : SpiBoard χ)

/-- A call other than `disk_initialize`. -/
inductive DiskCall
  | read (sector : BitVec 32) (count : ℕ)
  | write (buff : List Byte) (sector : BitVec 32) (count : ℕ)
  | ioctl (cmd : IoctlCmd)

/-- The call, without what it returns. -/
def DiskCall.exec (fuel pdrv : ℕ) : DiskCall → Comp (Disk χ) Stop Unit
  | .read sector count => do
      let _ ← diskRead B fuel pdrv sector count
      pure ()
  | .write buff sector count => do
      let _ ← diskWrite B fuel pdrv buff sector count
      pure ()
  | .ioctl cmd => do
      let _ ← diskIoctl pdrv cmd
      pure ()

/-- The states that are reached, with the attempts made on each drive and what they
returned, the last one first.  Between the calls the card may be removed or replaced. -/
inductive DiskRun (readonly : Bool) : Disk χ → List (ℕ × DStatus) → Prop
  | start (c : χ) : DiskRun readonly ⟨.zero, c⟩ []
  | attempt {d d' : Disk χ} {h : List (ℕ × DStatus)} {fuel pdrv : ℕ} {r : DStatus} :
      DiskRun readonly d h → diskInitialize B fuel readonly pdrv d = .ok (r, d') →
      DiskRun readonly d' ((pdrv, r) :: h)
  | call {d d' : Disk χ} {h : List (ℕ × DStatus)} {fuel pdrv : ℕ} {c : DiskCall} :
      DiskRun readonly d h → c.exec B fuel pdrv d = .ok ((), d') → DiskRun readonly d' h
  | card {d : Disk χ} {h : List (ℕ × DStatus)} (c : χ) :
      DiskRun readonly d h → DiskRun readonly ⟨d.drive, c⟩ h

/-- What the attempts on a drive returned, the last one first. -/
def attempts (pdrv : ℕ) (h : List (ℕ × DStatus)) : List DStatus :=
  (h.filter fun a => a.1 = pdrv).map Prod.snd

/-- The last attempt succeeded. -/
def LastSucceeded : List DStatus → Prop
  | [] => False
  | r :: _ => r.usable = true

/-- The drive is ready exactly when the last attempt on it succeeded. -/
def Consistent (pdrv : ℕ) (d : Disk χ) (h : List (ℕ × DStatus)) : Prop :=
  (LastSucceeded (attempts pdrv h) → Ready B pdrv d) ∧
    (¬ LastSucceeded (attempts pdrv h) → NotReady B pdrv d)

/-- The last attempt failed on a drive that an earlier one had marked. -/
def FailedAfterSuccess : List DStatus → Prop
  | [] => False
  | r :: rs => r.usable = false ∧ ∃ r' ∈ rs, r'.usable = true

/-! ## What an attempt writes -/

variable {B}

/-- The bus leaves the flags of the drive. -/
theorem keeps_onBus {γ : Type*} {f : Disk χ → γ} {α : Type} (x : Comp χ Stop α)
    (hf : ∀ d c, f { d with bus := c } = f d) : Keeps f (onBus x) :=
  keeps_focus x fun c d => hf d c

theorem keeps_modifyDrive {f : Pdrv → Pdrv} {γ : Type*} {g : Pdrv → γ} (h : ∀ p, g (f p) = g p) :
    Keeps (fun d : Disk χ => g d.drive) (modifyDrive f) :=
  keeps_modify fun d => h d.drive

/-- The flags that the guards look at. -/
def marks (p : Pdrv) : Bool × Bool := (p.initialized, p.present)

/-- The addressing mode is no mark. -/
theorem keeps_initCapacity (fuel : ℕ) :
    Keeps (fun d : Disk χ => marks d.drive) (initCapacity B fuel) := by
  refine (keeps_onBus _ fun _ _ => rfl).bind fun r3 => Keeps.ite ?_ ?_
  · exact Keeps.bind (keeps_modifyDrive (g := marks) fun _ => rfl) fun _ => keeps_pure _
  · refine Keeps.bind (keeps_modifyDrive (g := marks) fun _ => rfl) fun _ => ?_
    exact (keeps_onBus _ fun _ _ => rfl).bind fun _ => keeps_pure _

/-- The handshake does not touch the flags that the guards look at. -/
theorem keeps_initCard (fuel : ℕ) :
    Keeps (fun d : Disk χ => marks d.drive) (initCard B fuel) := by
  refine (keeps_onBus _ fun _ _ => rfl).bind fun _ => ?_
  refine (keeps_onBus _ fun _ _ => rfl).bind fun r1 => Keeps.ite (keeps_pure _) ?_
  refine (keeps_onBus _ fun _ _ => rfl).bind fun r7 => Keeps.ite (keeps_pure _) ?_
  refine (keeps_onBus _ fun _ _ => rfl).bind fun r1 => Keeps.ite (keeps_pure _) ?_
  exact keeps_initCapacity fuel

/-- A successful attempt marks the drive; a failed one leaves the marks alone. -/
theorem post_diskInitialize (fuel : ℕ) (readonly : Bool) (pdrv : ℕ) (d : Disk χ) :
    Post (diskInitialize B fuel readonly pdrv)
      (fun r d' => r.usable = true ∧ Marked pdrv d'.drive ∨
        r.usable = false ∧ ∀ k, Marked k d'.drive ↔ Marked k d.drive) d := by
  unfold diskInitialize
  rw [post_ite]
  constructor
  · intro hp
    rw [post_bind]
    refine (keeps_initCard fuel d).mono fun ok d1 hkept => ?_
    rw [post_ite]
    constructor
    · intro _
      rw [post_bind]
      unfold onBus
      rw [post_focus]
      intro _ c _
      unfold modifyDrive
      rw [post_bind, post_modify, post_pure]
      refine .inl ⟨?_, hp, rfl, rfl⟩
      cases readonly <;> rfl
    · intro _
      rw [post_pure]
      refine .inr ⟨rfl, fun k => ?_⟩
      obtain ⟨hi, hq⟩ := Prod.mk.inj hkept
      unfold Marked
      rw [hi, hq]
  · intro _
    exact post_pure.2 (.inr ⟨rfl, fun _ => Iff.rfl⟩)

theorem keeps_whenReady {α : Type} (pdrv : ℕ) (refuse : DResult → α)
    {body : Pdrv → Comp (Disk χ) Stop α} (hbody : ∀ p, Keeps Disk.drive (body p)) :
    Keeps Disk.drive (whenReady pdrv refuse body) := by
  refine keeps_get.bind fun d => ?_
  exact Keeps.ite (keeps_pure _) (Keeps.ite (keeps_pure _) (Keeps.ite (keeps_pure _) (hbody _)))

/-- The other calls do not write the flags. -/
theorem keeps_call (fuel pdrv : ℕ) (c : DiskCall) :
    Keeps Disk.drive (c.exec B fuel pdrv) := by
  cases c with
  | read sector count =>
      refine (keeps_whenReady pdrv _ fun p => ?_).bind fun _ => keeps_pure _
      exact (keeps_onBus _ fun _ _ => rfl).bind fun _ => keeps_pure _
  | write buff sector count =>
      refine (keeps_whenReady pdrv _ fun p => ?_).bind fun _ => keeps_pure _
      exact Keeps.ite (keeps_pure _) ((keeps_onBus _ fun _ _ => rfl).bind fun _ => keeps_pure _)
  | ioctl cmd =>
      exact (keeps_whenReady pdrv _ fun p => keeps_pure _).bind fun _ => keeps_pure _

/-! ## The marks of a run -/

/-- The attempts on one drive. -/
theorem attempts_cons (pdrv k : ℕ) (r : DStatus) (h : List (ℕ × DStatus)) :
    attempts pdrv ((k, r) :: h) = if k = pdrv then r :: attempts pdrv h else attempts pdrv h := by
  unfold attempts
  by_cases hk : k = pdrv
  · simp [hk]
  · simp [hk]

/-- A drive is marked once an attempt on it has succeeded, and for good. -/
theorem marked_iff {readonly : Bool} {d : Disk χ} {h : List (ℕ × DStatus)}
    (hrun : DiskRun B readonly d h) (pdrv : ℕ) :
    Marked pdrv d.drive ↔ ∃ r ∈ attempts pdrv h, r.usable = true := by
  induction hrun with
  | start c =>
      constructor
      · intro hm
        exact absurd hm.2.1 Bool.false_ne_true
      · rintro ⟨r, hr, -⟩
        exact absurd hr List.not_mem_nil
  | @attempt d d' h fuel k r _ hret ih =>
      rw [attempts_cons]
      rcases post_diskInitialize fuel readonly k d _ _ hret with ⟨hu, hm⟩ | ⟨hu, hm⟩
      · by_cases hk : k = pdrv
        · subst hk
          rw [if_pos rfl]
          exact ⟨fun _ => ⟨r, List.mem_cons_self, hu⟩, fun _ => hm⟩
        · -- there is one drive only, so an attempt on another one does not succeed
          rw [if_neg hk, ← ih]
          have hk0 : k = 0 := Nat.lt_one_iff.1 hm.1
          have hnot : ¬ pdrv < nPdrv := fun hp => hk (hk0.trans (Nat.lt_one_iff.1 hp).symm)
          exact ⟨fun h => absurd h.1 hnot, fun h => absurd h.1 hnot⟩
      · rw [hm, ih]
        by_cases hk : k = pdrv
        · rw [if_pos hk]
          constructor
          · rintro ⟨r', hr', hu'⟩
            exact ⟨r', List.mem_cons_of_mem _ hr', hu'⟩
          · rintro ⟨r', hr', hu'⟩
            rcases List.mem_cons.1 hr' with rfl | hr'
            · rw [hu] at hu'
              cases hu'
            · exact ⟨r', hr', hu'⟩
        · rw [if_neg hk]
  | @call d d' h fuel k c _ hret ih =>
      rw [show d'.drive = d.drive from keeps_call fuel k c d _ _ hret]
      exact ih
  | card c _ ih => exact ih

/-- **The drive is ready exactly when the last attempt succeeded, unless that attempt failed
after an earlier success**, in every state of every run. -/
theorem consistent_iff {readonly : Bool} {d : Disk χ} {h : List (ℕ × DStatus)}
    (hrun : DiskRun B readonly d h) (pdrv : ℕ) :
    Consistent B pdrv d h ↔ ¬ FailedAfterSuccess (attempts pdrv h) := by
  have hmarked := marked_iff hrun pdrv
  unfold Consistent
  cases hrs : attempts pdrv h with
  | nil =>
      rw [hrs] at hmarked
      have hnot : ¬ Marked pdrv d.drive := fun hm => by
        obtain ⟨r, hr, -⟩ := hmarked.1 hm
        exact absurd hr List.not_mem_nil
      exact ⟨fun _ hf => hf, fun _ => ⟨fun hf => hf.elim, fun _ => notReady_of_not_marked hnot⟩⟩
  | cons r rs =>
      rw [hrs] at hmarked
      -- the last attempt decides, but the flags of an earlier success remain
      cases hu : r.usable with
      | true =>
          have hm : Marked pdrv d.drive := hmarked.2 ⟨r, List.mem_cons_self, hu⟩
          constructor
          · rintro - ⟨hu', -⟩
            rw [hu] at hu'
            cases hu'
          · intro _
            exact ⟨fun _ => ready_of_marked hm, fun hlast => absurd hu hlast⟩
      | false =>
          constructor
          · rintro ⟨-, hnot⟩ ⟨-, r', hr', hu'⟩
            have hm : Marked pdrv d.drive := hmarked.2 ⟨r', List.mem_cons_of_mem _ hr', hu'⟩
            have hst := (hnot fun hl => Bool.false_ne_true (hu.symm.trans hl)).status
            rw [usable_diskStatus.2 hm] at hst
            cases hst
          · intro hok
            have hnot : ¬ Marked pdrv d.drive := by
              intro hm
              obtain ⟨r', hr', hu'⟩ := hmarked.1 hm
              rcases List.mem_cons.1 hr' with rfl | hr'
              · rw [hu] at hu'
                cases hu'
              · exact hok ⟨hu, r', hr', hu'⟩
            refine ⟨fun hl => ?_, fun _ => notReady_of_not_marked hnot⟩
            exact absurd (hu.symm.trans hl) Bool.false_ne_true

end Runs

/-! ## A card that is replaced -/

/-- A bus that answers with the bytes of a script, and then with an idle line. -/
def scriptSpi : SpiBoard (List Byte) where
  xfer _ c := (c.headD 0xFF, c.tail)
  gpioClear c := c
  gpioSet c := c
  spiInit _ c := c

/-- The script of one command: the bytes up to the response, the response, and the byte
after it. -/
def answer (resp : List Byte) : List Byte := List.replicate 7 0xFF ++ resp ++ [0xFF]

/-- The script of a card up to `CMD58`, which it answers with `ocr`. -/
def handshake (ocr : Byte) : List Byte :=
  List.replicate 32 0xFF ++ answer [0x01] ++ answer [0x01, 0, 0, 0x01, 0xAA] ++ answer [0x01] ++
    answer [0x00] ++ answer [0x00, ocr, 0, 0, 0]

/-- A card of high capacity. -/
def highCapacity : List Byte := handshake 0x40

/-- A card of standard capacity that refuses `CMD16`. -/
def refusesCmd16 : List Byte := handshake 0x00 ++ answer [0x04]

theorem attempt_highCapacity : diskInitialize scriptSpi 1 false 0 ⟨.zero, highCapacity⟩ =
    .ok (.ok, ⟨⟨true, true, false, false⟩, []⟩) := by decide +kernel

theorem attempt_refusesCmd16 :
    diskInitialize scriptSpi 1 false 0 ⟨⟨true, true, false, false⟩, refusesCmd16⟩ =
      .ok (.nodisk, ⟨⟨true, true, false, true⟩, []⟩) := by decide +kernel

theorem diskRun_highCapacity :
    DiskRun scriptSpi false ⟨⟨true, true, false, false⟩, []⟩ [(0, .ok)] :=
  .attempt (.start highCapacity) attempt_highCapacity

/-- A drive whose only attempt has succeeded is ready. -/
theorem consistent_highCapacity :
    Consistent scriptSpi 0 ⟨⟨true, true, false, false⟩, []⟩ [(0, .ok)] := by
  refine (consistent_iff diskRun_highCapacity 0).2 ?_
  rintro ⟨hu, -⟩
  cases hu

/-- A card is replaced by another one, whose initialisation fails at its last stage: the
drive stays ready, and its addressing mode is now that of the card that failed. -/
theorem replaced_card_stays_ready : ∃ d,
    DiskRun scriptSpi false d [(0, .nodisk), (0, .ok)] ∧ d.drive.byteAddressable = true ∧
      ¬ Consistent scriptSpi 0 d [(0, .nodisk), (0, .ok)] := by
  refine ⟨_, .attempt (.card refusesCmd16 diskRun_highCapacity) attempt_refusesCmd16, rfl, ?_⟩
  rintro ⟨-, hnot⟩
  have hst := (hnot fun hl => Bool.false_ne_true hl).status
  cases hst

end Sd

end Nucleo
