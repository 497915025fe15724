/-
# The records of a DNS response

What `recv_dns_response` makes of a well-formed response: a list with one entry for each
address record of the Internet, in the order of the message.

The cursor reads the name of a record by following pointers and then goes past the same
name in place, so `RecordsAt` gives a record both its labels and the position behind its
name.  The source builds the list with a pointer to the first entry and one to the last;
`answersLinked_agrees` says that this is the list of `answersLoop`.
-/
import Nucleo.Lib.Chain
import Nucleo.DnsNames

namespace Nucleo

namespace Dns

open Guarded Walk Chain

/-! ## Records -/

/-- A resource record: the labels of its owner name, its type and class, and its data. -/
structure Record where
  name : List (List Byte)
  type : BitVec 16
  class_ : BitVec 16
  rdata : List Byte
  deriving DecidableEq

/-- A record of type A and class IN. -/
def Record.IsAddress (r : Record) : Prop := r.type = typeA ∧ r.class_ = classIn

instance (r : Record) : Decidable r.IsAddress :=
  inferInstanceAs (Decidable (r.type = typeA ∧ r.class_ = classIn))

/-- The entry for a record: the address and the name, as a string. -/
def Record.entry (r : Record) : AddrInfo :=
  AddrInfo.new (load32 (fun k => r.rdata.getD k 0) 0) (joined r.name ++ [0])

/-- The entries for the addresses among the records. -/
def addressEntries (rs : List Record) : List AddrInfo :=
  (rs.filter fun r => r.IsAddress).map Record.entry

/-- An address record gives one entry. -/
theorem addressEntries_of_isAddress {r : Record} (h : r.IsAddress) :
    addressEntries [r] = [r.entry] := by
  unfold addressEntries
  rw [List.filter_cons_of_pos (p := fun r : Record => decide r.IsAddress) (decide_eq_true h)]
  rfl

/-- Another record gives none. -/
theorem addressEntries_of_not_isAddress {r : Record} (h : ¬ r.IsAddress) :
    addressEntries [r] = [] := by
  unfold addressEntries
  rw [List.filter_cons_of_neg (p := fun r : Record => decide r.IsAddress)
    (fun hc => h (of_decide_eq_true hc))]
  rfl

/-- The entries come in order. -/
theorem addressEntries_cons (r : Record) (rs : List Record) :
    addressEntries (r :: rs) = addressEntries [r] ++ addressEntries rs := by
  unfold addressEntries
  rw [← List.map_append, ← List.filter_append, List.singleton_append]

/-- The data of the record behind the name that ends at `q`. -/
def recordData (m : ℕ → Byte) (q : ℕ) : List Byte :=
  Memory.read m (q + offsetRdata) (hostWord m (q + offsetRdlength)).toNat

/-- The record behind the name with the labels `ls` that ends at `q`. -/
def recordBehind (m : ℕ → Byte) (ls : List (List Byte)) (q : ℕ) : Record :=
  ⟨ls, hostWord m (q + offsetType), hostWord m (q + offsetClass), recordData m q⟩

/-- `n` records from `p` on lie before the limit, the addresses among them with four
bytes of data. -/
inductive RecordsAt (v : Response) : ℕ → ℕ → List Record → Prop
  | nil {p : ℕ} : RecordsAt v 0 p []
  | cons {n p q : ℕ} {ls : List (List Byte)} {rs : List Record} (hname : NameLabels v p ls)
      (hq : LabelsEnd v p q) (hinside : recordEnd v q ≤ v.limit)
      (hdata : IsAddress v q → (recordData v.mem q).length = 4)
      (hrest : RecordsAt v n (recordEnd v q) rs) :
      RecordsAt v (n + 1) p (recordBehind v.mem ls q :: rs)

/-- A response to the query `id` without an error, with the records `rs` as its answers. -/
structure WellFormed (v : Response) (id : BitVec 16) (rs : List Record) : Prop where
  header : dnsHeaderLen ≤ v.limit
  answer : IsAnswer v id
  records : ∃ p, QuestionsEnd v (hostWord v.mem offsetQdcount).toNat offsetQuestion p ∧
    RecordsAt v (answerCount v) p rs

section Mono

variable {v v' : Response} (hmem : v'.mem = v.mem) (hlim : v.limit ≤ v'.limit)

include hmem hlim

/-! ### Longer messages -/

/-- Labels end where they do in a longer message. -/
theorem LabelsEnd.mono {p q : ℕ} (h : LabelsEnd v p q) : LabelsEnd v' p q := by
  induction h with
  | zero hp hb => exact .zero (by omega) (by rw [hmem]; exact hb)
  | pointer hp hb => exact .pointer (by omega) (by rw [hmem]; exact hb)
  | text hp hb _ ih =>
      rw [← hmem] at hb ih
      exact .text (by omega) hb ih

theorem QuestionsEnd.mono {n p q : ℕ} (h : QuestionsEnd v n p q) : QuestionsEnd v' n p q := by
  induction h with
  | nil => exact .nil
  | cons hq _ ih => exact .cons (hq.mono hmem hlim) ih

theorem RecordsAt.mono {n p : ℕ} {rs : List Record} (h : RecordsAt v n p rs) :
    RecordsAt v' n p rs := by
  induction h with
  | nil => exact .nil
  | @cons n p q ls rs hname hq hinside hdata _ ih =>
      have hend : recordEnd v' q = recordEnd v q := by
        unfold recordEnd
        rw [hmem]
      unfold IsAddress at hdata
      rw [← hend] at hinside ih
      rw [← hmem] at hdata ⊢
      exact .cons (hname.mono hmem hlim) (hq.mono hmem hlim) (by omega) hdata ih

/-- A message is well-formed in the larger buffer too. -/
theorem WellFormed.mono {id : BitVec 16} {rs : List Record} (h : WellFormed v id rs) :
    WellFormed v' id rs := by
  obtain ⟨hheader, ⟨hid, hcode⟩, p, hp, hrs⟩ := h
  refine ⟨by omega, ⟨by rw [hmem]; exact hid, by rw [hmem]; exact hcode⟩, p, ?_, ?_⟩
  · rw [hmem]
    exact hp.mono hmem hlim
  · have hcount : answerCount v' = answerCount v := by
      unfold answerCount
      rw [hmem]
    rw [hcount]
    exact hrs.mono hmem hlim

end Mono

/-! ## Reading the records -/

section Reading

variable {v : Response} {fuel p q : ℕ}

/-- **The code finds the end of the labels**. -/
theorem skipLabels_of_labelsEnd (h : LabelsEnd v p q) (hfuel : v.limit < fuel) :
    skipLabels v fuel p = .ok (some q) := by
  rcases skipLabels_cases v fuel p with ⟨q', hq', hr⟩ | ⟨-, hle⟩ | ⟨-, hno⟩
  · rw [hr, h.unique hq']
  · omega
  · exact absurd h (hno q)

/-- It finds that of the questions. -/
theorem skipQuestionsLoop_of_questionsEnd {n : ℕ} (h : QuestionsEnd v n p q)
    (hfuel : v.limit < fuel) : skipQuestionsLoop v fuel n p = .ok (some q) := by
  rcases skipQuestionsLoop_cases v fuel n p with ⟨q', hq', hr⟩ | ⟨-, hle⟩ | ⟨-, hno⟩
  · rw [hr, h.unique hq']
  · omega
  · exact absurd h (hno q)

/-- What the record behind the name that ends at `q` adds to the list. -/
theorem readRecord_of_inside (ls : List (List Byte)) (hinside : recordEnd v q ≤ v.limit)
    (hdata : IsAddress v q → (recordData v.mem q).length = 4) :
    readRecord v (joined ls ++ [0]) q
      = .ok (addressEntries [recordBehind v.mem ls q], recordEnd v q) := by
  unfold recordEnd at hinside
  have hfixed : q + offsetRdata ≤ v.limit := by omega
  unfold offsetRdata at hfixed
  unfold readRecord
  rw [dnsResponseGet16_of_le (p := q + offsetType) (by unfold offsetType; omega),
    dnsResponseGet16_of_le (p := q + offsetClass) (by unfold offsetClass; omega),
    dnsResponseGet16_of_le (p := q + offsetRdlength) (by unfold offsetRdlength; omega)]
  dsimp only [bind, Except.bind]
  -- only an A record of class IN has its data read
  by_cases haddr : IsAddress v q
  · have hfour := hdata haddr
    have hload : (recordBehind v.mem ls q).entry
        = AddrInfo.new (load32 (fun k => (Memory.read v.mem (q + offsetRdata) 4).getD k 0) 0)
          (joined ls ++ [0]) := by
      rw [recordData, Memory.length_read] at hfour
      unfold Record.entry recordBehind recordData
      rw [hfour]
    rw [recordData, Memory.length_read] at hfour
    rw [addressEntries_of_isAddress (show (recordBehind v.mem ls q).IsAddress from haddr), hload]
    unfold IsAddress at haddr
    rw [if_pos haddr, cells_of_le (by omega)]
    rfl
  · rw [addressEntries_of_not_isAddress
      (show ¬ (recordBehind v.mem ls q).IsAddress from haddr)]
    unfold IsAddress at haddr
    rw [if_neg haddr]
    rfl

/-- **A round of the loop over the answers** on a record: the name is read through its
pointers, and the cursor is behind the record. -/
theorem answerRound_of_record (hlim : v.limit ≤ dnsMsgLen) (hfuel : v.limit < fuel)
    {ls : List (List Byte)} (hname : NameLabels v p ls) (hq : LabelsEnd v p q)
    (hinside : recordEnd v q ≤ v.limit)
    (hdata : IsAddress v q → (recordData v.mem q).length = 4) :
    answerRound v fuel p
      = .ok (some (addressEntries [recordBehind v.mem ls q], recordEnd v q)) := by
  unfold answerRound
  rw [newName_eq hlim hname hfuel]
  dsimp only [bind, Except.bind]
  rw [skipLabels_of_labelsEnd hq hfuel]
  dsimp only
  rw [readRecord_of_inside ls hinside hdata]
  rfl

/-- The loop over the answers, by induction over the records. -/
theorem answersLoop_of_records (hlim : v.limit ≤ dnsMsgLen) (hfuel : v.limit < fuel) {n : ℕ}
    {rs : List Record} (h : RecordsAt v n p rs) (ais : List AddrInfo) :
    answersLoop v fuel n p ais = .ok (some (ais ++ addressEntries rs)) := by
  induction h generalizing ais with
  | nil =>
      unfold answersLoop
      rw [show addressEntries [] = [] from rfl, List.append_nil]
      rfl
  | @cons n p q ls rs hname hq hinside hdata _ ih =>
      unfold answersLoop
      rw [answerRound_of_record hlim hfuel hname hq hinside hdata,
        addressEntries_cons _ rs, ← List.append_assoc]
      exact ih _

/-- A well-formed response, with any number of bytes up to the buffer. -/
theorem readAnswers_of_wellFormed (hlim : v.limit ≤ dnsMsgLen) (hfuel : v.limit < fuel)
    {id : BitVec 16} {rs : List Record} (h : WellFormed v id rs) :
    readAnswers v fuel = .ok (0, some (addressEntries rs)) := by
  obtain ⟨hheader, -, p, hp, hrs⟩ := h
  unfold dnsHeaderLen at hheader
  unfold readAnswers skipQuestions
  rw [dnsResponseGet16_of_le (p := offsetQdcount) (by unfold offsetQdcount; omega)]
  dsimp only [bind, Except.bind]
  rw [skipQuestionsLoop_of_questionsEnd hp hfuel]
  dsimp only
  rw [dnsResponseGet16_of_le (p := offsetAncount) (by unfold offsetAncount; omega)]
  dsimp only
  have hloop := answersLoop_of_records hlim hfuel hrs []
  unfold answerCount at hloop
  rw [hloop]
  rfl

end Reading

/-! ## The list with a first and a last entry -/

section LinkedList

variable (v : Response) (fuel : ℕ)

/-- The loop over the answers with `ai_head` and `ai_tail`: new entries are allocated and
put at the end. -/
def answersLinked : ℕ → ℕ → Builder AddrInfo → Except DnsStop (Option (Builder AddrInfo))
  | 0, _, s => pure (some s)
  | n + 1, presp, s => do
      match ← answerRound v fuel presp with
      | none => pure none
      | some (new, presp) => answersLinked n presp (new.foldl Builder.insert s)

/-- The two loops end alike, and the linked list holds the entries of the other one. -/
def Agrees : Except DnsStop (Option (Builder AddrInfo)) →
    Except DnsStop (Option (List AddrInfo)) → Prop
  | .error e, .error e' => e = e'
  | .ok none, .ok none => True
  | .ok (some s), .ok (some ais) => ∃ l, Built s l ∧ values l = ais
  | _, _ => False

variable {v fuel}

/-- New entries go to the end of the list. -/
theorem built_foldl {s : Builder AddrInfo} {l : List (ℕ × AddrInfo)} (h : Built s l)
    (new : List AddrInfo) :
    ∃ l', Built (new.foldl Builder.insert s) l' ∧ values l' = values l ++ new := by
  induction new generalizing s l with
  | nil => exact ⟨l, h, (List.append_nil _).symm⟩
  | cons x new ih =>
      obtain ⟨l', hl', hval⟩ := ih (h.insert x)
      refine ⟨l', hl', ?_⟩
      rw [hval, values, List.map_append, List.map_singleton, List.append_assoc]
      rfl

/-- **The linked list is the list of the answers**, whatever the message is. -/
theorem answersLinked_agrees {s : Builder AddrInfo} {l : List (ℕ × AddrInfo)} (h : Built s l)
    (n presp : ℕ) :
    Agrees (answersLinked v fuel n presp s) (answersLoop v fuel n presp (values l)) := by
  induction n generalizing presp s l with
  | zero => exact ⟨l, h, rfl⟩
  | succ n ih =>
      unfold answersLinked answersLoop
      cases answerRound v fuel presp with
      | error e => exact rfl
      | ok r =>
          cases r with
          | none => exact trivial
          | some r =>
              obtain ⟨l', hl', hval⟩ := built_foldl h r.1
              have hrest := ih hl' r.2
              rw [hval] at hrest
              exact hrest

theorem exists_of_agrees {r : Except DnsStop (Option (Builder AddrInfo))} {ais : List AddrInfo}
    (h : Agrees r (.ok (some ais))) : ∃ s l, r = .ok (some s) ∧ Built s l ∧ values l = ais := by
  cases r with
  | error e => exact h.elim
  | ok r =>
      cases r with
      | none => exact h.elim
      | some s =>
          obtain ⟨l, hl, hval⟩ := h
          exact ⟨s, l, rfl, hl, hval⟩

end LinkedList

/-! ## Receiving -/

/-- A message that `recv_dns_response` passes over. -/
def Ignored (id : BitVec 16) (got : ℤ × (ℕ → Byte)) : Prop :=
  0 ≤ got.1 ∧ (got.1 < dnsHeaderLen ∨ hostWord got.2 offsetId ≠ id)

/-- Messages that are ignored make no difference. -/
theorem recvDnsResponse_of_ignored {id : BitVec 16} {fuel : ℕ} {pre : List (ℤ × (ℕ → Byte))}
    (hpre : ∀ got ∈ pre, Ignored id got) (rest : List (ℤ × (ℕ → Byte))) :
    recvDnsResponse fuel id (pre ++ rest) = recvDnsResponse fuel id rest := by
  induction pre with
  | nil => rfl
  | cons got pre ih =>
      obtain ⟨len, mem⟩ := got
      obtain ⟨⟨hnonneg, hwhy⟩, hpre⟩ := List.forall_mem_cons.1 hpre
      have hskip : processResponse ⟨mem, dnsMsgLen⟩ fuel len.toNat id = .ok none := by
        unfold processResponse
        by_cases hlen : len.toNat < dnsHeaderLen
        · rw [if_pos hlen]
          rfl
        · rw [if_neg hlen, dnsResponseGet16_of_le (v := ⟨mem, dnsMsgLen⟩)
            (show offsetId + 2 ≤ dnsMsgLen by decide)]
          dsimp only [bind, Except.bind]
          rw [if_pos (hwhy.resolve_left (by dsimp only at hnonneg ⊢; omega))]
          rfl
      rw [List.cons_append]
      conv_lhs => unfold recvDnsResponse
      rw [if_neg (by dsimp only at hnonneg; omega), hskip]
      exact ih hpre

/-- A list is stored with the value 0 only. -/
theorem processResponse_unwritten {v : Response} {fuel len : ℕ} {id : BitVec 16} {ret : ℤ}
    {res : Option (List AddrInfo)} (h : processResponse v fuel len id = .ok (some (ret, res)))
    (hret : ret ≠ 0) : res = none := by
  unfold processResponse at h
  split_ifs at h with hlen
  · cases h
  obtain ⟨got, -, h⟩ := bind_eq_ok.1 h
  split_ifs at h with hid
  · cases h
  obtain ⟨code, -, h⟩ := bind_eq_ok.1 h
  dsimp only at h
  split_ifs at h with hname hcode
  · cases h
    rfl
  · cases h
    rfl
  obtain ⟨r, hread, h⟩ := bind_eq_ok.1 h
  cases h
  unfold readAnswers at hread
  obtain ⟨p, -, hread⟩ := bind_eq_ok.1 hread
  cases p with
  | none =>
      cases hread
      rfl
  | some p =>
      obtain ⟨ancount, -, hread⟩ := bind_eq_ok.1 hread
      obtain ⟨ais, -, hread⟩ := bind_eq_ok.1 hread
      cases ais with
      | none =>
          cases hread
          rfl
      | some ais =>
          cases hread
          exact absurd rfl hret

theorem recvDnsResponse_unwritten {fuel : ℕ} {id : BitVec 16} {recvs : List (ℤ × (ℕ → Byte))}
    {ret : ℤ} {res : Option (List AddrInfo)} (h : recvDnsResponse fuel id recvs = .ok (ret, res))
    (hret : ret ≠ 0) : res = none := by
  induction recvs with
  | nil => cases h
  | cons got recvs ih =>
      obtain ⟨len, mem⟩ := got
      unfold recvDnsResponse at h
      split_ifs at h with hneg
      · cases h
        rfl
      · obtain ⟨r, hproc, h⟩ := bind_eq_ok.1 h
        cases r with
        | none => exact ih h
        | some r =>
            cases h
            exact processResponse_unwritten hproc hret

/-- The entry of an address record has its four bytes and its name. -/
theorem Record.entry_eq {r : Record} (h : r.rdata.length = 4) :
    bytes32 r.entry.aiAddr.sinAddr = r.rdata ∧ r.entry.aiCanonname = joined r.name ++ [0] := by
  refine ⟨?_, rfl⟩
  show bytes32 (load32 (fun k => r.rdata.getD k 0) 0) = r.rdata
  rw [bytes32_load32, Memory.read_getD _ _ (by omega), List.drop_zero,
    List.take_of_length_le (by omega)]

/-- An address has four bytes. -/
theorem RecordsAt.length_rdata {v : Response} {n p : ℕ} {rs : List Record}
    (h : RecordsAt v n p rs) : ∀ r ∈ rs, r.IsAddress → r.rdata.length = 4 := by
  induction h with
  | nil => exact fun r hr => absurd hr List.not_mem_nil
  | cons _ _ _ hdata _ ih =>
      intro r hr
      rcases List.mem_cons.1 hr with rfl | hr
      · exact hdata
      · exact ih r hr

/-! ### A well-formed answer -/

/-- **A well-formed response gives its addresses.**  It may come behind messages that are
passed over; the list, also as it is linked, holds the address records in order, with their
bytes and their names.  With any other value than 0 nothing is stored. -/
theorem recvDnsResponse_wellFormed {mem : ℕ → Byte} {len : ℕ} {id : BitVec 16}
    {rs : List Record} (hlen : len ≤ dnsMsgLen) (h : WellFormed ⟨mem, len⟩ id rs) {fuel : ℕ}
    (hfuel : dnsMsgLen < fuel) :
    (∀ pre rest : List (ℤ × (ℕ → Byte)), (∀ got ∈ pre, Ignored id got) →
      recvDnsResponse fuel id (pre ++ (↑len, mem) :: rest) = .ok (0, some (addressEntries rs))) ∧
    (∀ r ∈ rs, r.IsAddress →
      bytes32 r.entry.aiAddr.sinAddr = r.rdata ∧ r.entry.aiCanonname = joined r.name ++ [0]) ∧
    (∃ p, QuestionsEnd ⟨mem, len⟩ (hostWord mem offsetQdcount).toNat offsetQuestion p ∧
      ∀ heap, ∃ s l, answersLinked ⟨mem, dnsMsgLen⟩ fuel (hostWord mem offsetAncount).toNat p
        (Builder.start heap) = .ok (some s) ∧ Built s l ∧ values l = addressEntries rs) ∧
    ∀ recvs ret res, recvDnsResponse fuel id recvs = .ok (ret, res) → ret ≠ 0 → res = none := by
  have hbig : WellFormed ⟨mem, dnsMsgLen⟩ id rs :=
    h.mono (show (View.mk mem dnsMsgLen).mem = mem from rfl) hlen
  refine ⟨fun pre rest hpre => ?_, ?_, ?_, fun recvs ret res => recvDnsResponse_unwritten⟩
  · have hread : readAnswers ⟨mem, dnsMsgLen⟩ fuel = .ok (0, some (addressEntries rs)) :=
      readAnswers_of_wellFormed le_rfl hfuel hbig
    have hlong : dnsHeaderLen ≤ len := h.header
    rw [recvDnsResponse_of_ignored hpre]
    unfold recvDnsResponse
    rw [if_neg (by omega), Int.toNat_natCast,
      processResponse_of_isAnswer hbig.header fuel hlong hbig.answer, hread]
    rfl
  · obtain ⟨p, -, hrs⟩ := h.records
    exact fun r hr haddr => Record.entry_eq (hrs.length_rdata r hr haddr)
  · obtain ⟨p, hp, -⟩ := h.records
    obtain ⟨p', hp', hrs⟩ := hbig.records
    have hsame : p = p' := (hp.mono (show (View.mk mem dnsMsgLen).mem = mem from rfl) hlen).unique hp'
    subst hsame
    refine ⟨p, hp, fun heap => exists_of_agrees ?_⟩
    have hloop := answersLoop_of_records le_rfl hfuel hrs []
    rw [List.nil_append] at hloop
    rw [← hloop]
    exact answersLinked_agrees (built_start heap) _ _

/-- The records of `aliasResponse`. -/
theorem aliasResponse_wellFormed :
    WellFormed ⟨fun i => aliasResponse.getD i 0, 49⟩ 0x1234
      [⟨[[0x61]], 5, 1, [0xC0, 12]⟩, ⟨[[0x61]], 1, 1, [10, 0, 0, 1]⟩] := by
  have hname : NameLabels ⟨fun i => aliasResponse.getD i 0, 49⟩ 12 [[0x61]] :=
    .text (by decide) (by decide) (.zero (by decide) (by decide))
  have hfirst : LabelsEnd ⟨fun i => aliasResponse.getD i 0, 49⟩ 19 21 :=
    .pointer (by decide) (by decide)
  have hsecond : LabelsEnd ⟨fun i => aliasResponse.getD i 0, 49⟩ 33 35 :=
    .pointer (by decide) (by decide)
  have hcount : answerCount ⟨fun i => aliasResponse.getD i 0, 49⟩ = 2 := by decide
  have halias : (⟨[[0x61]], 5, 1, [0xC0, 12]⟩ : Record)
      = recordBehind (fun i => aliasResponse.getD i 0) [[0x61]] 21 := by decide
  have haddr : (⟨[[0x61]], 1, 1, [10, 0, 0, 1]⟩ : Record)
      = recordBehind (fun i => aliasResponse.getD i 0) [[0x61]] 35 := by decide
  refine ⟨by decide, ⟨by decide, by decide⟩, 19, ?_, ?_⟩
  · exact .cons (.text (by decide) (by decide) (.zero (by decide) (by decide))) .nil
  · rw [hcount, halias, haddr]
    refine .cons (.pointer (by decide) (by decide) hname) hfirst (by decide) ?_ ?_
    · exact fun h => absurd h.1 (by decide)
    · exact .cons (.pointer (by decide) (by decide) hname) hsecond (by decide)
        (fun _ => by decide) .nil

/-- The alias is skipped, and the address has the name that both point to. -/
theorem recvDnsResponse_aliasResponse :
    recvDnsResponse 513 0x1234 [(49, fun i => aliasResponse.getD i 0)]
      = .ok (0, some [AddrInfo.new 0x0100000A [0x61, 0]]) :=
  (recvDnsResponse_wellFormed (by decide) aliasResponse_wellFormed (by decide)).1 [] []
    (fun _ h => absurd h List.not_mem_nil)

end Dns

end Nucleo
