/-
# Internet addresses as text

`inet_addr` and `inet_ntoa`.  A text is the bytes up to its terminating zero, which is what
`headD 0` reads behind the last one.

`Accepts` is the grammar, which says nothing of how a text is scanned: one to four numbers as in
C, joined by dots; all but the last one are bytes of the address, and the last one is the rest of
it, most significant byte first.
-/
import Nucleo.Inet

namespace Nucleo

namespace InetText

/-! ## Numbers -/

/-- The value of a character as a digit, up to base 16. -/
def digitOf (c : Byte) : Option ℕ :=
  if 0x30 ≤ c ∧ c ≤ 0x39 then some (c.toNat - 0x30)
  else if 0x61 ≤ c ∧ c ≤ 0x66 then some (c.toNat - 0x57)
  else if 0x41 ≤ c ∧ c ≤ 0x46 then some (c.toNat - 0x37)
  else none

/-- The character is a digit in the base. -/
def isDigitIn (base : ℕ) (c : Byte) : Bool := (digitOf c).any fun d => decide (d < base)

/-- `isdigit`. -/
def isdigit (c : Byte) : Bool := isDigitIn 10 c

/-- `isascii` and `isspace`. -/
def isspace (c : Byte) : Bool := decide (c = 0x20 ∨ 0x09 ≤ c ∧ c ≤ 0x0D)

/-- The number that digits stand for. -/
def valueOf (base : ℕ) (ds : List Byte) : ℕ :=
  ds.foldl (fun n c => n * base + (digitOf c).getD 0) 0

def ulongMax : ℕ := 0xFFFFFFFF

/-- What `strtoul` returns, whether it sets `ERANGE`, and where it stops. -/
structure Strtoul where
  ul : ℕ
  erange : Bool
  endp : List Byte

/-- A letter that stands for base 16. -/
def isX (c : Byte) : Bool := decide (c = 0x78 ∨ c = 0x58)

/-- The base of a number as in C. -/
def strtoulBase (s : List Byte) : ℕ :=
  if s.headD 0 = 0x30 then if isX (s.getD 1 0) ∧ isDigitIn 16 (s.getD 2 0) then 16 else 8
  else 10

/-- `strtoul` with base 0, of a text that begins with a digit, so that there are no blanks and no
sign to skip. -/
def strtoul (s : List Byte) : Strtoul :=
  let base := strtoulBase s
  let digits := if base = 16 then s.drop 2 else s
  let value := valueOf base (digits.takeWhile (isDigitIn base))
  ⟨min value ulongMax, decide (value > ulongMax), digits.dropWhile (isDigitIn base)⟩

/-! ## `inet_addr` -/

def inaddrNone : InAddr := -1

/-- The table `max`. -/
def inetMax (parts : ℕ) : ℕ := [0xFFFFFFFF, 0xFFFFFF, 0xFFFF, 0xFF].getD parts 0

/-- What the loop of `inet_addr` leaves: `res.bytes` as far as they are written, `val`, `digit`
and `cp`. -/
structure Parts where
  bytes : List Byte
  val : ℕ
  digit : Bool
  cp : List Byte

/-- The loop of `inet_addr`, with the number of dots that may still come; `none` stands for
`ret_err`. -/
def inetAddrLoop (dots : ℕ) (bytes cp : List Byte) : Option Parts :=
  if ¬ isdigit (cp.headD 0) then none
  else
    let r := strtoul cp
    if r.ul = ulongMax ∧ r.erange then none
    else if r.ul > 0xFFFFFFFF then none
    else if r.endp.headD 0 = 0x2E then
      match dots with
      | 0 => none
      | dots + 1 =>
          if r.ul > 0xFF then none
          else inetAddrLoop dots (bytes ++ [BitVec.ofNat 8 r.ul]) r.endp.tail
    else some ⟨bytes, r.ul, decide (r.endp.length ≠ cp.length), r.endp⟩

/-- `inet_addr`. -/
def inetAddr (cp : List Byte) : InAddr :=
  match inetAddrLoop 3 [] cp with
  | none => inaddrNone
  | some p =>
      if p.cp.headD 0 ≠ 0 ∧ ¬ isspace (p.cp.headD 0) then inaddrNone
      else if ¬ p.digit then inaddrNone
      else if p.val > inetMax p.bytes.length then inaddrNone
      else load32 (fun i => p.bytes.getD i 0) 0 ||| htonl (BitVec.ofNat 32 p.val)

/-! ## `inet_ntoa` -/

/-- What `%u` prints. -/
def decimal (n : ℕ) : List Byte :=
  if n = 0 then [0x30] else (Nat.digits 10 n).reverse.map fun d => BitVec.ofNat 8 (d + 0x30)

def inetAddrstrlen : ℕ := 16

/-- `inet_ntoa`. -/
def inetNtoa (a : InAddr) : List Byte :=
  let b (i : ℕ) : List Byte := decimal ((bytes32 a).getD i 0).toNat
  (b 0 ++ 0x2E :: (b 1 ++ 0x2E :: (b 2 ++ 0x2E :: b 3))).take (inetAddrstrlen - 1)

/-! ## The grammar -/

/-- A number as in C, and its value. -/
inductive Numeral : List Byte → ℕ → Prop
  | decimal {ds : List Byte} (hne : ds ≠ []) (hhead : ds.headD 0 ≠ 0x30)
      (h : ∀ c ∈ ds, isDigitIn 10 c = true) : Numeral ds (valueOf 10 ds)
  | octal {ds : List Byte} (h : ∀ c ∈ ds, isDigitIn 8 c = true) :
      Numeral (0x30 :: ds) (valueOf 8 ds)
  | hex {x : Byte} {ds : List Byte} (hx : isX x = true) (hne : ds ≠ [])
      (h : ∀ c ∈ ds, isDigitIn 16 c = true) : Numeral (0x30 :: x :: ds) (valueOf 16 ds)

/-- Numbers joined by dots: the text, the bytes before the last number, and that number. -/
inductive Dotted : List Byte → List Byte → ℕ → Prop
  | last {w : List Byte} {v : ℕ} (h : Numeral w v) : Dotted w [] v
  | dot {w text bytes : List Byte} {v last : ℕ} (h : Numeral w v) (hv : v ≤ 0xFF)
      (hrest : Dotted text bytes last) : Dotted (w ++ 0x2E :: text) (BitVec.ofNat 8 v :: bytes) last

/-- The lowest bytes of a number, most significant byte first. -/
def bigEndian : ℕ → ℕ → List Byte
  | 0, _ => []
  | n + 1, v => BitVec.ofNat 8 (v / 256 ^ n) :: bigEndian n v

/-- A character at which a number ends. -/
def Stops (c : Byte) : Prop := c = 0 ∨ isspace c = true

/-- The text is that of the address, with anything behind a blank. -/
inductive Accepts : List Byte → InAddr → Prop
  | text {text tail bytes : List Byte} {last : ℕ} {a : InAddr} (h : Dotted text bytes last)
      (hlen : bytes.length ≤ 3) (hlast : last < 256 ^ (4 - bytes.length))
      (htail : Stops (tail.headD 0)) (ha : bytes32 a = bytes ++ bigEndian (4 - bytes.length) last) :
      Accepts (text ++ tail) a

/-! ## Scanning a number -/

/-- No digit, and no letter of base 16. -/
def Foreign (c : Byte) : Prop := isDigitIn 16 c = false ∧ isX c = false

theorem digit_mono {base base' : ℕ} {c : Byte} (hle : base ≤ base')
    (h : isDigitIn base c = true) : isDigitIn base' c = true := by
  unfold isDigitIn at h ⊢
  rw [Option.any_eq_true] at h ⊢
  obtain ⟨d, hd, hlt⟩ := h
  exact ⟨d, hd, decide_eq_true ((of_decide_eq_true hlt).trans_le hle)⟩

theorem foreign_of_stops {c : Byte} (h : Stops c ∨ c = 0x2E) : Foreign c := by
  unfold Foreign
  revert h c
  unfold Stops
  decide

theorem Foreign.not_digit {base : ℕ} {c : Byte} (h : Foreign c) (hbase : base ≤ 16) :
    isDigitIn base c = false := by
  rw [← Bool.not_eq_true]
  intro hd
  exact Bool.false_ne_true (h.1.symm.trans (digit_mono hbase hd))

theorem isdigit_not_x {c : Byte} (h : isDigitIn 16 c = true) : isX c = false := by
  revert h c
  decide

/-- The digits are taken, and no more. -/
theorem scan_append {base : ℕ} {ds rest : List Byte} (hbase : base ≤ 16)
    (h : ∀ c ∈ ds, isDigitIn base c = true) (hrest : Foreign (rest.headD 0)) :
    (ds ++ rest).takeWhile (isDigitIn base) = ds ∧
      (ds ++ rest).dropWhile (isDigitIn base) = rest := by
  rw [List.takeWhile_append_of_pos h, List.dropWhile_append_of_pos h]
  cases rest with
  | nil => exact ⟨List.append_nil ds, rfl⟩
  | cons c rest =>
      have hc : isDigitIn base c = false := hrest.not_digit hbase
      rw [List.takeWhile_cons, List.dropWhile_cons, hc]
      exact ⟨List.append_nil ds, rfl⟩

theorem headD_append {ds rest : List Byte} (hne : ds ≠ []) :
    (ds ++ rest).headD 0 = ds.headD 0 := by
  cases ds with
  | nil => exact absurd rfl hne
  | cons c ds => rfl

/-- A zero in front does not count. -/
theorem valueOf_zero (base : ℕ) (ds : List Byte) : valueOf base (0x30 :: ds) = valueOf base ds := by
  unfold valueOf
  rw [List.foldl_cons, Nat.zero_mul]
  rfl

theorem strtoulBase_of_ne {s : List Byte} (h : s.headD 0 ≠ 0x30) : strtoulBase s = 10 := if_neg h

theorem strtoulBase_zero (s : List Byte) :
    strtoulBase (0x30 :: s)
      = if isX (s.getD 0 0) ∧ isDigitIn 16 (s.getD 1 0) then 16 else 8 := if_pos rfl

/-! ### `strtoul` -/

/-- What `strtoul` returns where the base is known. -/
theorem strtoul_eq {s digits : List Byte} {base : ℕ} (hbase : strtoulBase s = base)
    (hdigits : (if base = 16 then s.drop 2 else s) = digits) :
    strtoul s = ⟨min (valueOf base (digits.takeWhile (isDigitIn base))) ulongMax,
      decide (valueOf base (digits.takeWhile (isDigitIn base)) > ulongMax),
      digits.dropWhile (isDigitIn base)⟩ := by
  subst hbase
  subst hdigits
  rfl

/-- `strtoul` of a number with nothing behind it that could belong to it. -/
theorem strtoul_numeral {w rest : List Byte} {v : ℕ} (h : Numeral w v)
    (hrest : Foreign (rest.headD 0)) :
    strtoul (w ++ rest) = ⟨min v ulongMax, decide (v > ulongMax), rest⟩ := by
  cases h with
  | decimal hne hhead hds =>
      have hbase : strtoulBase (w ++ rest) = 10 :=
        strtoulBase_of_ne (by rw [headD_append hne]; exact hhead)
      obtain ⟨htake, hdrop⟩ := scan_append (by decide) hds hrest
      rw [strtoul_eq hbase (if_neg (by decide)), htake, hdrop]
  | @octal ds hds =>
      -- the character after the zero is no letter of base 16
      have hx : isX ((ds ++ rest).getD 0 0) = false := by
        cases ds with
        | nil =>
            cases rest with
            | nil => rfl
            | cons c rest => exact hrest.2
        | cons c ds => exact isdigit_not_x (digit_mono (by decide) (hds c List.mem_cons_self))
      have hbase : strtoulBase (0x30 :: ds ++ rest) = 8 := by
        rw [List.cons_append, strtoulBase_zero, if_neg]
        rintro ⟨hx', -⟩
        rw [hx] at hx'
        cases hx'
      have hall : ∀ c ∈ 0x30 :: ds, isDigitIn 8 c = true := by
        intro c hc
        rcases List.mem_cons.1 hc with rfl | hc
        · rfl
        · exact hds c hc
      obtain ⟨htake, hdrop⟩ := scan_append (by decide) hall hrest
      rw [strtoul_eq hbase (if_neg (by decide)), htake, hdrop, valueOf_zero]
  | @hex x ds hx hne hds =>
      have hbase : strtoulBase (0x30 :: x :: ds ++ rest) = 16 := by
        rw [List.cons_append, strtoulBase_zero, if_pos]
        refine ⟨hx, ?_⟩
        cases ds with
        | nil => exact absurd rfl hne
        | cons c ds => exact hds c List.mem_cons_self
      obtain ⟨htake, hdrop⟩ := scan_append (by decide) hds hrest
      rw [strtoul_eq hbase (show _ = ds ++ rest from if_pos rfl), htake, hdrop]

/-- What `strtoul` takes of a text that begins with a digit is a number. -/
theorem strtoul_sound {cp : List Byte} (h : isdigit (cp.headD 0) = true) :
    ∃ w v rest, Numeral w v ∧ w ≠ [] ∧ cp = w ++ rest ∧
      strtoul cp = ⟨min v ulongMax, decide (v > ulongMax), rest⟩ := by
  have hdigits : ∀ {base : ℕ} {s : List Byte}, ∀ c ∈ s.takeWhile (isDigitIn base),
      isDigitIn base c = true := fun c hc => List.mem_takeWhile_imp hc
  -- the prefix decides the base: `0x` with a digit behind it, 0, or neither
  by_cases hzero : cp.headD 0 = 0x30
  · obtain ⟨s, rfl⟩ : ∃ s, cp = 0x30 :: s := by
      cases cp with
      | nil => exact absurd hzero (by decide)
      | cons c s => exact ⟨s, by rw [show c = 0x30 from hzero]⟩
    by_cases hhex : isX (s.getD 0 0) = true ∧ isDigitIn 16 (s.getD 1 0) = true
    · have hbase : strtoulBase (0x30 :: s) = 16 := by
        rw [strtoulBase_zero, if_pos hhex]
      obtain ⟨hx, hdigit⟩ := hhex
      obtain ⟨x, c, s, rfl⟩ : ∃ x c t, s = x :: c :: t := by
        cases s with
        | nil => exact absurd hx (by decide)
        | cons x s =>
            cases s with
            | nil => cases hdigit
            | cons c s => exact ⟨x, c, s, rfl⟩
      have htake : (c :: s).takeWhile (isDigitIn 16) = c :: s.takeWhile (isDigitIn 16) := by
        rw [List.takeWhile_cons, show isDigitIn 16 c = true from hdigit]
        rfl
      refine ⟨0x30 :: x :: (c :: s).takeWhile (isDigitIn 16), _, _,
        .hex hx (by rw [htake]; exact List.cons_ne_nil _ _) hdigits, List.cons_ne_nil _ _, ?_,
        strtoul_eq hbase (show _ = c :: s from if_pos rfl)⟩
      rw [List.cons_append, List.cons_append, List.takeWhile_append_dropWhile]
    · have hbase : strtoulBase (0x30 :: s) = 8 := by
        rw [strtoulBase_zero, if_neg hhex]
      have htake : (0x30 :: s : List Byte).takeWhile (isDigitIn 8)
          = 0x30 :: s.takeWhile (isDigitIn 8) := rfl
      have hret := strtoul_eq hbase (if_neg (by decide))
      rw [htake, valueOf_zero] at hret
      refine ⟨0x30 :: s.takeWhile (isDigitIn 8), _, _, .octal hdigits, List.cons_ne_nil _ _, ?_,
        hret⟩
      rw [← htake, List.takeWhile_append_dropWhile]
  · cases cp with
    | nil => exact absurd h (by decide)
    | cons c s =>
        have htake : (c :: s).takeWhile (isDigitIn 10) = c :: s.takeWhile (isDigitIn 10) := by
          rw [List.takeWhile_cons, show isDigitIn 10 c = true from h]
          rfl
        refine ⟨(c :: s).takeWhile (isDigitIn 10), _, _, .decimal ?_ ?_ hdigits, ?_,
          List.takeWhile_append_dropWhile.symm,
          strtoul_eq (strtoulBase_of_ne hzero) (if_neg (by decide))⟩
        · rw [htake]
          exact List.cons_ne_nil _ _
        · rw [htake]
          exact hzero
        · rw [htake]
          exact List.cons_ne_nil _ _

/-- A number begins with a digit. -/
theorem Numeral.isdigit {w : List Byte} {v : ℕ} (h : Numeral w v) :
    w ≠ [] ∧ InetText.isdigit (w.headD 0) = true := by
  cases h with
  | decimal hne _ hds =>
      cases w with
      | nil => exact absurd rfl hne
      | cons c w => exact ⟨hne, hds c List.mem_cons_self⟩
  | octal _ => exact ⟨List.cons_ne_nil _ _, rfl⟩
  | hex _ _ _ => exact ⟨List.cons_ne_nil _ _, rfl⟩

/-! ## The loop -/

/-- The loop takes numbers joined by dots. -/
theorem inetAddrLoop_of_dotted {text tail bytes : List Byte} {last : ℕ}
    (h : Dotted text bytes last) (dots : ℕ) (before : List Byte) (hlen : bytes.length ≤ dots)
    (hlast : last ≤ ulongMax) (htail : Stops (tail.headD 0)) :
    inetAddrLoop dots before (text ++ tail) = some ⟨before ++ bytes, last, true, tail⟩ := by
  -- induction on the grammar: the last number, or a number and a dot
  induction h generalizing dots before with
  | @last w v hnum =>
      obtain ⟨hne, hdigit⟩ := hnum.isdigit
      have hlt : tail.length ≠ (w ++ tail).length := by
        have hpos := List.length_pos_of_ne_nil hne
        rw [List.length_append]
        omega
      have hdot : tail.headD 0 ≠ 0x2E := by
        intro heq
        rw [heq] at htail
        revert htail
        unfold Stops
        decide
      unfold inetAddrLoop
      rw [headD_append hne, if_neg (not_not.2 hdigit),
        strtoul_numeral hnum (foreign_of_stops (Or.inl htail)), min_eq_left hlast]
      dsimp only
      rw [decide_eq_false (not_lt.2 hlast), if_neg (fun h => Bool.false_ne_true h.2),
        if_neg (by unfold ulongMax at hlast; omega), if_neg hdot, List.append_nil,
        decide_eq_true hlt]
  | @dot w text bytes v last hnum hv _ ih =>
      obtain ⟨hne, hdigit⟩ := hnum.isdigit
      rw [List.length_cons] at hlen
      obtain ⟨dots, rfl⟩ : ∃ n, dots = n + 1 := ⟨dots - 1, by omega⟩
      have hle : v ≤ ulongMax := by unfold ulongMax; omega
      have hrest : Foreign ((0x2E :: text ++ tail).headD 0) := foreign_of_stops (Or.inr rfl)
      unfold inetAddrLoop
      rw [List.append_assoc, headD_append hne, if_neg (not_not.2 hdigit),
        strtoul_numeral hnum hrest, min_eq_left hle]
      dsimp only
      rw [decide_eq_false (not_lt.2 hle), if_neg (fun h => Bool.false_ne_true h.2),
        if_neg (by omega), if_pos (show (0x2E :: text ++ tail).headD 0 = 0x2E from rfl),
        if_neg (by omega)]
      have hloop := ih dots (before ++ [BitVec.ofNat 8 v]) (by omega) hlast
      rw [List.append_assoc, List.singleton_append] at hloop
      exact hloop

/-- A round of the loop takes a number, and goes on behind a dot. -/
theorem inetAddrLoop_round {dots : ℕ} {before cp : List Byte} {p : Parts}
    (h : inetAddrLoop dots before cp = some p) :
    ∃ w v rest, Numeral w v ∧ cp = w ++ rest ∧ v ≤ ulongMax ∧
      (p = ⟨before, v, true, rest⟩ ∨
        ∃ dots' rest', dots = dots' + 1 ∧ v ≤ 0xFF ∧ rest = 0x2E :: rest' ∧
          inetAddrLoop dots' (before ++ [BitVec.ofNat 8 v]) rest' = some p) := by
  unfold inetAddrLoop at h
  split at h
  · cases h
  · rename_i hdigit
    obtain ⟨w, v, rest, hnum, hne, hcp, hret⟩ := strtoul_sound (not_not.1 hdigit)
    rw [hret] at h
    dsimp only at h
    by_cases hle : v ≤ ulongMax
    · have hsmall : ¬ v > 0xFFFFFFFF := not_lt.2 hle
      rw [min_eq_left hle, decide_eq_false (not_lt.2 hle), if_neg (fun hr => Bool.false_ne_true hr.2),
        if_neg hsmall] at h
      refine ⟨w, v, rest, hnum, hcp, hle, ?_⟩
      by_cases hdot : rest.headD 0 = 0x2E
      · rw [if_pos hdot] at h
        cases dots with
        | zero => cases h
        | succ dots =>
            dsimp only at h
            by_cases hv : v > 0xFF
            · rw [if_pos hv] at h
              cases h
            · rw [if_neg hv] at h
              cases rest with
              | nil => exact absurd hdot (by decide)
              | cons c rest =>
                  exact Or.inr ⟨dots, rest, rfl, not_lt.1 hv, congrArg (· :: rest) hdot, h⟩
      · rw [if_neg hdot] at h
        cases h
        have hpos := List.length_pos_of_ne_nil hne
        have hlen : rest.length ≠ cp.length := by
          rw [hcp, List.length_append]
          omega
        exact Or.inl (by rw [decide_eq_true hlen])
    · -- a number that does not fit is an error
      rw [if_pos ⟨min_eq_right (not_le.1 hle).le, decide_eq_true (not_le.1 hle)⟩] at h
      cases h

/-- What the loop takes is numbers joined by dots. -/
theorem dotted_of_inetAddrLoop {dots : ℕ} {before cp : List Byte} {p : Parts}
    (h : inetAddrLoop dots before cp = some p) :
    ∃ text bytes, cp = text ++ p.cp ∧ Dotted text bytes p.val ∧ p.bytes = before ++ bytes ∧
      bytes.length ≤ dots ∧ p.val ≤ ulongMax ∧ p.digit = true := by
  induction dots generalizing before cp with
  | zero =>
      obtain ⟨w, v, rest, hnum, hcp, hle, rfl | ⟨dots, rest', hdots, -⟩⟩ := inetAddrLoop_round h
      · exact ⟨w, [], hcp, .last hnum, (List.append_nil before).symm, le_rfl, hle, rfl⟩
      · cases hdots
  | succ dots ih =>
      obtain ⟨w, v, rest, hnum, hcp, hle, rfl | ⟨dots', rest', hdots, hv, rfl, hrest⟩⟩ :=
        inetAddrLoop_round h
      · exact ⟨w, [], hcp, .last hnum, (List.append_nil before).symm, Nat.zero_le _, hle, rfl⟩
      · cases hdots
        obtain ⟨text, bytes, rfl, hdotted, hbytes, hlen, hval, hdigit⟩ := ih hrest
        refine ⟨w ++ 0x2E :: text, BitVec.ofNat 8 v :: bytes, ?_, .dot hnum hv hdotted, ?_,
          Nat.succ_le_succ hlen, hval, hdigit⟩
        · rw [hcp, List.append_assoc, List.cons_append]
        · rw [hbytes, List.append_assoc, List.singleton_append]

/-! ## The word -/

theorem inetMax_add_one {n : ℕ} (h : n ≤ 3) : inetMax n + 1 = 256 ^ (4 - n) := by
  interval_cases n <;> rfl

/-- A byte of a number. -/
theorem extract_ofNat (v k : ℕ) (hk : k ≤ 24) :
    (BitVec.ofNat 32 v).extractLsb' k 8 = BitVec.ofNat 8 (v / 2 ^ k) := by
  apply BitVec.eq_of_toNat_eq
  rw [BitVec.extractLsb'_toNat, BitVec.toNat_ofNat, BitVec.toNat_ofNat, Nat.shiftRight_eq_div_pow]
  obtain ⟨m, hm⟩ : ∃ m, 32 = k + 8 + m := ⟨24 - k, by omega⟩
  have hpow : 2 ^ 32 = 2 ^ k * (2 ^ 8 * 2 ^ m) := by rw [hm, pow_add, pow_add, mul_assoc]
  rw [hpow, Nat.mod_mul_right_div_self, Nat.mod_mul_right_mod]

/-- The bytes of a number that is turned round. -/
theorem htonl_ofNat (v : ℕ) :
    htonl (BitVec.ofNat 32 v) = BitVec.ofNat 8 v ++ BitVec.ofNat 8 (v / 256) ++
      BitVec.ofNat 8 (v / 256 ^ 2) ++ BitVec.ofNat 8 (v / 256 ^ 3) := by
  unfold htonl
  rw [extract_ofNat v 0 (by decide), extract_ofNat v 8 (by decide), extract_ofNat v 16 (by decide),
    extract_ofNat v 24 (by decide), pow_zero, Nat.div_one]
  rfl

/-- The word that `inet_addr` puts together. -/
theorem bytes32_word {bytes : List Byte} {v : ℕ} (hlen : bytes.length ≤ 3)
    (hv : v < 256 ^ (4 - bytes.length)) :
    bytes32 (load32 (fun i => bytes.getD i 0) 0 ||| htonl (BitVec.ofNat 32 v))
      = bytes ++ bigEndian (4 - bytes.length) v := by
  rw [htonl_ofNat]
  unfold load32
  rw [BitVec.or_append, BitVec.or_append, BitVec.or_append, bytes32_append]
  -- the bytes stored and those of the number do not meet
  have hzero : ∀ k, v < 256 ^ k → BitVec.ofNat 8 (v / 256 ^ k) = 0 := fun k hk => by
    rw [Nat.div_eq_of_lt hk]
    rfl
  match bytes, hlen, hv with
  | [], _, _ => simp [bigEndian]
  | [b0], _, hv =>
      rw [hzero 3 hv]
      simp [bigEndian]
  | [b0, b1], _, hv =>
      have hlt : v < 256 ^ 2 := hv
      rw [hzero 3 (by omega), hzero 2 hlt]
      simp [bigEndian]
  | [b0, b1, b2], _, hv =>
      have hlt : v < 256 ^ 1 := hv
      have hone := hzero 1 hlt
      rw [pow_one] at hone
      rw [hzero 3 (by omega), hzero 2 (by omega), hone]
      simp [bigEndian]

/-- The bytes determine a word. -/
theorem bytes32_injective {a b : BitVec 32} (h : bytes32 a = bytes32 b) : a = b := by
  have hload : ∀ v : BitVec 32, load32 (Memory.write (fun _ => 0) 0 (bytes32 v)) 0 = v :=
    fun v => load32_write _ 0 v
  rw [← hload a, h, hload b]

/-! ## `inet_addr` -/

/-- **A text of an address is read.** -/
theorem inetAddr_of_accepts {cp : List Byte} {a : InAddr} (h : Accepts cp a) : inetAddr cp = a := by
  obtain ⟨hdotted, hlen, hlast, htail, ha⟩ := h
  rename_i text tail bytes last
  have hmax := inetMax_add_one hlen
  have hle : last ≤ ulongMax := by
    have hpow : 256 ^ (4 - bytes.length) ≤ 256 ^ 4 := Nat.pow_le_pow_right (by decide) (by omega)
    unfold ulongMax
    omega
  have hend : ¬ (tail.headD 0 ≠ 0 ∧ ¬ isspace (tail.headD 0) = true) := by
    rintro ⟨hne, hspace⟩
    rcases htail with hzero | hblank
    · exact hne hzero
    · exact hspace hblank
  unfold inetAddr
  rw [inetAddrLoop_of_dotted hdotted 3 [] hlen hle htail]
  dsimp only
  rw [List.nil_append, if_neg hend, if_neg (by decide), if_neg (by omega)]
  exact bytes32_injective ((bytes32_word hlen hlast).trans ha.symm)

/-- What is read is a text of the address. -/
theorem accepts_of_inetAddr {cp : List Byte} (h : inetAddr cp ≠ inaddrNone) :
    Accepts cp (inetAddr cp) := by
  unfold inetAddr at h ⊢
  cases hloop : inetAddrLoop 3 [] cp with
  | none =>
      rw [hloop] at h
      exact absurd rfl h
  | some p =>
      rw [hloop] at h
      dsimp only at h ⊢
      by_cases hend : p.cp.headD 0 ≠ 0 ∧ ¬ isspace (p.cp.headD 0) = true
      · rw [if_pos hend] at h
        exact absurd rfl h
      · rw [if_neg hend] at h ⊢
        obtain ⟨text, bytes, rfl, hdotted, hbytes, hlen, hval, hdigit⟩ :=
          dotted_of_inetAddrLoop hloop
        rw [List.nil_append] at hbytes
        rw [hdigit, if_neg (by decide)] at h ⊢
        by_cases hmax : p.val > inetMax p.bytes.length
        · rw [if_pos hmax] at h
          exact absurd rfl h
        · have hadd := inetMax_add_one hlen
          rw [if_neg hmax, hbytes]
          rw [hbytes] at hmax
          have hlast : p.val < 256 ^ (4 - bytes.length) := by omega
          refine .text hdotted hlen hlast ?_ (bytes32_word hlen hlast)
          by_cases hzero : p.cp.headD 0 = 0
          · exact Or.inl hzero
          · exact Or.inr (not_not.1 fun hblank => hend ⟨hzero, hblank⟩)

/-! ## `inet_ntoa` -/

/-- The character of a decimal digit. -/
theorem digitOf_char : ∀ d < 10, digitOf (BitVec.ofNat 8 (d + 0x30)) = some d := by decide

/-- Digits, the lowest one first, written the other way round. -/
theorem valueOf_digits {ds : List ℕ} (h : ∀ d ∈ ds, d < 10) :
    valueOf 10 (ds.reverse.map fun d => BitVec.ofNat 8 (d + 0x30)) = Nat.ofDigits 10 ds := by
  unfold valueOf
  rw [List.map_reverse, List.foldl_reverse]
  induction ds with
  | nil => rfl
  | cons d ds ih =>
      rw [List.map_cons, List.foldr_cons, ih fun d' hd' => h d' (List.mem_cons_of_mem _ hd'),
        digitOf_char d (h d List.mem_cons_self), Option.getD_some, Nat.ofDigits_cons, add_comm,
        mul_comm]

/-- What `%u` prints is a number as in C. -/
theorem numeral_decimal (n : ℕ) : Numeral (decimal n) n := by
  unfold decimal
  by_cases hzero : n = 0
  · have hnil : ∀ c ∈ ([] : List Byte), isDigitIn 8 c = true :=
      fun c hc => absurd hc List.not_mem_nil
    rw [if_pos hzero, hzero]
    exact .octal hnil
  · rw [if_neg hzero]
    have hlt : ∀ d ∈ Nat.digits 10 n, d < 10 := fun d hd => Nat.digits_lt_base (by decide) hd
    have hne : Nat.digits 10 n ≠ [] := Nat.digits_ne_nil_iff_ne_zero.2 hzero
    have hhead : ((Nat.digits 10 n).reverse.map fun d => BitVec.ofNat 8 (d + 0x30)).headD 0
        ≠ 0x30 := by
      -- the first digit is the last one of the list, which is not zero
      have hlast := Nat.getLast_digit_ne_zero 10 hzero
      have hlast' := hlt _ (List.getLast_mem hne)
      rw [← List.dropLast_append_getLast hne, List.reverse_append]
      show BitVec.ofNat 8 ((Nat.digits 10 n).getLast hne + 0x30) ≠ 0x30
      generalize (Nat.digits 10 n).getLast hne = d at hlast hlast'
      interval_cases d <;> first | exact absurd rfl hlast | decide
    have hnum : Numeral ((Nat.digits 10 n).reverse.map fun d => BitVec.ofNat 8 (d + 0x30)) _ :=
      .decimal (by simpa using hne) hhead fun c hc => by
        obtain ⟨d, hd, rfl⟩ := List.mem_map.1 hc
        have hd' := hlt d (List.mem_reverse.1 hd)
        unfold isDigitIn
        rw [digitOf_char d hd']
        exact decide_eq_true hd'
    rwa [valueOf_digits hlt, Nat.ofDigits_digits] at hnum

/-- A byte has three digits at most. -/
theorem length_decimal_le {n : ℕ} (h : n < 256) : (decimal n).length ≤ 3 := by
  have h' : n < 10 ^ 3 := by omega
  unfold decimal
  split_ifs
  · decide
  · rw [List.length_map, List.length_reverse]
    exact (Nat.digits_length_le_iff (by decide) n).2 h'

/-! ### The text of an address -/

/-- The four bytes of an address in decimal, with dots between them. -/
def dottedDecimal (a : InAddr) : List Byte :=
  decimal ((bytes32 a).getD 0 0).toNat ++ 0x2E :: (decimal ((bytes32 a).getD 1 0).toNat ++
    0x2E :: (decimal ((bytes32 a).getD 2 0).toNat ++ 0x2E :: decimal ((bytes32 a).getD 3 0).toNat))

/-- The text is not cut. -/
theorem inetNtoa_eq (a : InAddr) : inetNtoa a = dottedDecimal a := by
  have hlen : ∀ i, (decimal ((bytes32 a).getD i 0).toNat).length ≤ 3 :=
    fun i => length_decimal_le (BitVec.isLt _)
  have h0 := hlen 0
  have h1 := hlen 1
  have h2 := hlen 2
  have h3 := hlen 3
  unfold inetNtoa
  refine List.take_of_length_le ?_
  unfold inetAddrstrlen
  dsimp only
  rw [List.length_append, List.length_cons, List.length_append, List.length_cons,
    List.length_append, List.length_cons]
  omega

/-- **What `inet_ntoa` prints is a text of the address.** -/
theorem accepts_inetNtoa (a : InAddr) : Accepts (inetNtoa a) a := by
  have hround : ∀ b : Byte, BitVec.ofNat 8 b.toNat = b := fun b => by simp
  have hdotted : Dotted (inetNtoa a) [(bytes32 a).getD 0 0, (bytes32 a).getD 1 0,
      (bytes32 a).getD 2 0] ((bytes32 a).getD 3 0).toNat := by
    have hbyte : ∀ b : Byte, b.toNat ≤ 0xFF := fun b => Nat.le_of_lt_succ b.isLt
    rw [inetNtoa_eq, dottedDecimal]
    have hnum : ∀ i, Numeral (decimal ((bytes32 a).getD i 0).toNat) ((bytes32 a).getD i 0).toNat :=
      fun i => numeral_decimal _
    have htext := Dotted.dot (hnum 0) (hbyte _) (.dot (hnum 1) (hbyte _) (.dot (hnum 2) (hbyte _)
      (.last (hnum 3))))
    rwa [hround, hround, hround] at htext
  have hend : Stops (([] : List Byte).headD 0) := Or.inl rfl
  have htext := Accepts.text (a := a) hdotted (le_refl 3)
    (show _ < 256 ^ 1 from BitVec.isLt _) hend (by
      show bytes32 a = _ ++ bigEndian 1 _
      rw [bigEndian, bigEndian, pow_zero, Nat.div_one, hround]
      rfl)
  rwa [List.append_nil] at htext

/-- **`inet_addr` reads exactly the texts of the grammar**: its value is that of the address,
and `INADDR_NONE` where the text is none, or that of `INADDR_NONE` itself.  It reads back what
`inet_ntoa` prints, which is the whole text of the address. -/
theorem inet_addr_reads_text :
    (∀ (cp : List Byte) (a : InAddr),
      inetAddr cp = a ↔ Accepts cp a ∨ a = inaddrNone ∧ ∀ a', ¬ Accepts cp a') ∧
    ∀ a : InAddr, inetNtoa a = dottedDecimal a ∧ inetAddr (inetNtoa a) = a := by
  refine ⟨fun cp a => ⟨fun h => ?_, ?_⟩, fun a =>
    ⟨inetNtoa_eq a, inetAddr_of_accepts (accepts_inetNtoa a)⟩⟩
  · by_cases hacc : ∃ a', Accepts cp a'
    · obtain ⟨a', ha'⟩ := hacc
      rw [inetAddr_of_accepts ha'] at h
      exact Or.inl (h ▸ ha')
    · refine Or.inr ⟨?_, fun a' ha' => hacc ⟨a', ha'⟩⟩
      by_contra hne
      rw [← h] at hne
      exact hacc ⟨_, accepts_of_inetAddr hne⟩
  · rintro (hacc | ⟨rfl, hnone⟩)
    · exact inetAddr_of_accepts hacc
    · by_contra hne
      exact hnone _ (accepts_of_inetAddr hne)

end InetText

end Nucleo
