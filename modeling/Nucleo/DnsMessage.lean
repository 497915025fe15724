/-
# DNS responses

The half of `getaddrinfo.c` that reads a response: `skip_labels`, `parse_name`,
`skip_questions` and `recv_dns_response`.

None of these functions is told where the message ends.  A response is a memory with a
limit (`Guarded.View`), and positions count from the start of the message; looking at a
byte at or behind the limit stops a computation (`DnsStop.outside`).  With the length of
the datagram as the limit, a computation that never stops this way has examined only
bytes that were received.

The rounds of each loop are bounded by `fuel` (`DnsStop.running`).  `malloc` is taken to
succeed, as the source takes it.
-/
import Nucleo.Lib.Guarded
import Nucleo.Lib.Walk
import Nucleo.Inet

namespace Nucleo

namespace Dns

open Guarded Walk

/-! ## Constants -/

/-- The size of the receive buffer. -/
def dnsMsgLen : ℕ := 512

/-- `DNS_HEADER_LEN`. -/
def dnsHeaderLen : ℕ := 12

/-- The type of an address record. -/
def typeA : BitVec 16 := 1
/-- The class of the internet. -/
def classIn : BitVec 16 := 1

/-- The response code of success. -/
def rcodeNoerr : Byte := 0
/-- The response code of a name that does not exist. -/
def rcodeEname : Byte := 3

/-- Where the identifier is in the header. -/
def offsetId : ℕ := 0
/-- Where the response code is. -/
def offsetRcode : ℕ := 3
/-- Where the number of questions is. -/
def offsetQdcount : ℕ := 4
/-- Where the number of answers is. -/
def offsetAncount : ℕ := 6
/-- Where the question begins. -/
def offsetQuestion : ℕ := 12

/-- Where the type of a record is, from the end of its name. -/
def offsetType : ℕ := 0
/-- Where its class is. -/
def offsetClass : ℕ := 2
/-- Where the length of its data is. -/
def offsetRdlength : ℕ := 8
/-- Where its data are. -/
def offsetRdata : ℕ := 10

/-- `EAI_FAIL`. -/
def eaiFail : ℤ := 3
/-- `EAI_NONAME`. -/
def eaiNoname : ℤ := 6
/-- `EAI_SYSTEM`. -/
def eaiSystem : ℤ := 9

/-- Why reading a response has not returned. -/
inductive DnsStop
  /-- It is still in a loop. -/
  | running
  /-- It examined a byte at or behind the limit. -/
  | outside
  /-- It dereferenced a null pointer. -/
  | nullDeref
  deriving DecidableEq, Repr

/-- The memory of a response and the end of what may be examined. -/
abbrev Response := View Byte

/-! ## Labels -/

/-- The half word of a message in host order. -/
def hostWord (m : ℕ → Byte) (p : ℕ) : BitVec 16 := htons (word16 (m p) (m (p + 1)))

/-- `label_ispointer`. -/
def labelIspointer (b : Byte) : Bool := b &&& 0xC0 = 0xC0

/-- `label_isend`. -/
def labelIsend (b : Byte) : Bool := b = 0

/-- `label_isstr`. -/
def labelIsstr (b : Byte) : Bool := 0 < b ∧ b < 0xC0

/-- `get_label_len`. -/
def getLabelLen (b : Byte) : ℕ := (b &&& 0x3F).toNat

/-- The offset in the two bytes of a compression pointer. -/
def pointerOffset (w : BitVec 16) : ℕ := (w &&& 0x3FFF).toNat

section Reading

variable (v : Response) (fuel : ℕ)

/-- `dns_response_get16`. -/
def dnsResponseGet16 (p : ℕ) : Except DnsStop (BitVec 16) := do
  let bs ← v.cells .outside p 2
  pure (htons (word16 (bs.getD 0 0) (bs.getD 1 0)))

/-- `get_label_offset`. -/
def getLabelOffset (label : ℕ) : Except DnsStop ℕ := do
  let offset ← dnsResponseGet16 v label
  pure (pointerOffset offset)

/-- A round of the loop of `skip_labels`; `none` is the null pointer. -/
def skipLabelsRound (label : ℕ) : Except DnsStop (ℕ ⊕ Option ℕ) := do
  let b ← v.cell .outside label
  if labelIsend b then pure (.inr (some (label + 1)))
  else if labelIspointer b then pure (.inr (some (label + 2)))
  else if labelIsstr b then pure (.inl (label + (getLabelLen b + 1)))
  else pure (.inr none)

/-- `skip_labels`. -/
def skipLabels (label : ℕ) : Except DnsStop (Option ℕ) :=
  loop .running (skipLabelsRound v) fuel label

/-- The variables of `parse_name`; `text` is what was written through `dst`. -/
structure NameState where
  label : ℕ
  strLen : BitVec 16
  firstLabelStr : Bool
  text : List Byte
  deriving DecidableEq, Repr

/-- `if (first_label_str) ... else ...`: the dot between two labels. -/
def NameState.separate (s : NameState) (store : Bool) : NameState :=
  if s.firstLabelStr then { s with firstLabelStr := false }
  else { s with strLen := s.strLen + 1, text := if store then s.text ++ [0x2E] else s.text }

/-- `memcpy(dst, get_label_str(label), label_len)`, when `dst` is not null. -/
def labelText (store : Bool) (label len : ℕ) : Except DnsStop (List Byte) :=
  if store then v.cells .outside (label + 1) len else pure []

/-- A round of the loop of `parse_name`; `store` says that `dst` is not null. -/
def parseNameRound (store : Bool) (s : NameState) :
    Except DnsStop (NameState ⊕ BitVec 16 × List Byte) := do
  let b ← v.cell .outside s.label
  if labelIspointer b then
    let offset ← getLabelOffset v s.label
    pure (.inl { s with label := offset })
  else if labelIsend b then
    pure (.inr (s.strLen + 1, if store then s.text ++ [0] else s.text))
  else if labelIsstr b then
    let str ← labelText v store s.label (getLabelLen b)
    let t := s.separate store
    pure (.inl { t with
      label := s.label + (getLabelLen b + 1)
      strLen := t.strLen + BitVec.ofNat 16 (getLabelLen b)
      text := t.text ++ str })
  else pure (.inr (0, s.text))

/-- `parse_name`: the value it returns and what it writes. -/
def parseName (store : Bool) (pstart : ℕ) : Except DnsStop (BitVec 16 × List Byte) :=
  loop .running (parseNameRound v store) fuel ⟨pstart, 0, true, []⟩

/-- `get_name_size`. -/
def getNameSize (pstart : ℕ) : Except DnsStop (BitVec 16) := do
  pure (← parseName v fuel false pstart).1

/-- `new_name`: the name, `none` for the null pointer, and the length. -/
def newName (pstart : ℕ) : Except DnsStop (Option (List Byte) × BitVec 16) := do
  let nameLen ← getNameSize v fuel pstart
  if nameLen = 0 then pure (none, nameLen)
  else
    let r ← parseName v fuel true pstart
    pure (some r.2, nameLen)

/-! ## Questions and answers -/

/-- The loop of `skip_questions` over the questions that are left. -/
def skipQuestionsLoop : ℕ → ℕ → Except DnsStop (Option ℕ)
  | 0, presp => pure (some presp)
  | n + 1, presp => do
      match ← skipLabels v fuel presp with
      | none => pure none
      | some presp => skipQuestionsLoop n (presp + 4)

/-- `skip_questions`. -/
def skipQuestions : Except DnsStop (Option ℕ) := do
  let qdcount ← dnsResponseGet16 v offsetQdcount
  skipQuestionsLoop v fuel qdcount.toNat offsetQuestion

/-- `struct addrinfo`, without `ai_next`: the entries are kept in a list. -/
structure AddrInfo where
  aiFlags : ℤ
  aiFamily : Family
  aiSocktype : ℤ
  aiProtocol : ℤ
  aiAddrlen : ℕ
  aiAddr : SockaddrIn
  aiCanonname : List Byte
  deriving DecidableEq, Repr

/-- `SOCK_DGRAM`. -/
def sockDgram : ℤ := 2

/-- The entry for an address. -/
def AddrInfo.new (addr : InAddr) (name : List Byte) : AddrInfo :=
  ⟨0, .inet, sockDgram, 0, sockaddrInSize, ⟨.inet, 0, addr⟩, name⟩

/-- The record behind a name: what it adds to the list and the pointer after it. -/
def readRecord (name : List Byte) (presp : ℕ) : Except DnsStop (List AddrInfo × ℕ) := do
  let type ← dnsResponseGet16 v (presp + offsetType)
  let class_ ← dnsResponseGet16 v (presp + offsetClass)
  let rdlength ← dnsResponseGet16 v (presp + offsetRdlength)
  if type = typeA ∧ class_ = classIn then
    let addr ← v.cells .outside (presp + offsetRdata) 4
    pure ([AddrInfo.new (load32 (fun k => addr.getD k 0) 0) name],
      presp + (offsetRdata + rdlength.toNat))
  else pure ([], presp + (offsetRdata + rdlength.toNat))

/-- A round of the loop over the answers; `none` when the name is malformed. -/
def answerRound (presp : ℕ) : Except DnsStop (Option (List AddrInfo × ℕ)) := do
  match (← newName v fuel presp).1 with
  | none => pure none
  | some name =>
      match ← skipLabels v fuel presp with
      | none => throw .nullDeref
      | some presp => pure (some (← readRecord v name presp))

/-- The loop over the answers that are left; `ais` is the list built so far. -/
def answersLoop : ℕ → ℕ → List AddrInfo → Except DnsStop (Option (List AddrInfo))
  | 0, _, ais => pure (some ais)
  | n + 1, presp, ais => do
      match ← answerRound v fuel presp with
      | none => pure none
      | some (new, presp) => answersLoop n presp (ais ++ new)

/-- The part of `recv_dns_response` after the check of the response code. -/
def readAnswers : Except DnsStop (ℤ × Option (List AddrInfo)) := do
  match ← skipQuestions v fuel with
  | none => pure (eaiFail, none)
  | some presp =>
      let ancount ← dnsResponseGet16 v offsetAncount
      match ← answersLoop v fuel ancount.toNat presp [] with
      | none => pure (eaiFail, none)
      | some ais => pure (0, some ais)

/-- What `recv_dns_response` does with a message of `len` bytes: the value it returns and
the list it stores in `*res`, or `none` when it goes on waiting. -/
def processResponse (len : ℕ) (id : BitVec 16) :
    Except DnsStop (Option (ℤ × Option (List AddrInfo))) := do
  if len < dnsHeaderLen then pure none
  else if (← dnsResponseGet16 v offsetId) ≠ id then pure none
  else
    let rcode := (← v.cell .outside offsetRcode) &&& 0x0F
    if rcode = rcodeEname then pure (some (eaiNoname, none))
    else if rcode ≠ rcodeNoerr then pure (some (eaiFail, none))
    else pure (some (← readAnswers v fuel))

end Reading

/-- `recv_dns_response` on what `recv` returns and leaves in the buffer, call by call; it
is still waiting when the list runs out. -/
def recvDnsResponse (fuel : ℕ) (id : BitVec 16) :
    List (ℤ × (ℕ → Byte)) → Except DnsStop (ℤ × Option (List AddrInfo))
  | [] => throw .running
  | (len, mem) :: rest =>
      if len < 0 then pure (eaiSystem, none)
      else do
        match ← processResponse ⟨mem, dnsMsgLen⟩ fuel len.toNat id with
        | some r => pure r
        | none => recvDnsResponse fuel id rest

/-! ## How a message is made up -/

section Structure

variable (v : Response)

/-- From the label at `p` a name goes on at `q`. -/
inductive Follow : ℕ → ℕ → Prop
  | text {p : ℕ} (hp : p < v.limit) (hb : labelIsstr (v.mem p) = true) :
      Follow p (p + (getLabelLen (v.mem p) + 1))
  | pointer {p : ℕ} (hp : p + 1 < v.limit) (hb : labelIspointer (v.mem p) = true) :
      Follow p (pointerOffset (hostWord v.mem p))

/-- The name at `p` ends. -/
def NameEnds (p : ℕ) : Prop :=
  ∃ e, Relation.ReflTransGen (Follow v) p e ∧ e < v.limit ∧ labelIsend (v.mem e) = true

/-- The labels at `p` are written up to `q`. -/
inductive LabelsEnd : ℕ → ℕ → Prop
  | zero {p : ℕ} (hp : p < v.limit) (hb : labelIsend (v.mem p) = true) : LabelsEnd p (p + 1)
  | pointer {p : ℕ} (hp : p < v.limit) (hb : labelIspointer (v.mem p) = true) :
      LabelsEnd p (p + 2)
  | text {p q : ℕ} (hp : p < v.limit) (hb : labelIsstr (v.mem p) = true)
      (hrest : LabelsEnd (p + (getLabelLen (v.mem p) + 1)) q) : LabelsEnd p q

/-- `n` questions from `p` on are written up to `q`. -/
inductive QuestionsEnd : ℕ → ℕ → ℕ → Prop
  | nil {p : ℕ} : QuestionsEnd 0 p p
  | cons {n p q r : ℕ} (hq : LabelsEnd v p q) (hrest : QuestionsEnd n (q + 4) r) :
      QuestionsEnd (n + 1) p r

/-- The record behind the name that ends at `q` is an address of the Internet. -/
def IsAddress (q : ℕ) : Prop :=
  hostWord v.mem (q + offsetType) = typeA ∧ hostWord v.mem (q + offsetClass) = classIn

/-- What is read of the record behind the name that ends at `q` lies before the limit. -/
def RecordInside (q : ℕ) : Prop :=
  q + offsetRdata ≤ v.limit ∧ (IsAddress v q → q + offsetRdata + 4 ≤ v.limit)

/-- The end of that record. -/
def recordEnd (q : ℕ) : ℕ := q + (offsetRdata + (hostWord v.mem (q + offsetRdlength)).toNat)

/-- The answer number `k` starts at `p`: those before it have names that end and records
that can be read. -/
inductive AnswerAt : ℕ → ℕ → Prop
  | first {p : ℕ} (hp : QuestionsEnd v (hostWord v.mem offsetQdcount).toNat offsetQuestion p) :
      AnswerAt 0 p
  | next {k p q : ℕ} (hp : AnswerAt k p) (hname : NameEnds v p) (hq : LabelsEnd v p q)
      (hrec : RecordInside v q) : AnswerAt (k + 1) (recordEnd v q)

/-- The message is a response to the query that is looked into. -/
def IsAnswer (id : BitVec 16) : Prop :=
  hostWord v.mem offsetId = id ∧ v.mem offsetRcode &&& 0x0F = rcodeNoerr

end Structure

/-! ## Rounds of the loops -/

/-- A byte is a pointer, the end or the length of a text. -/
theorem label_cases (b : Byte) :
    (labelIspointer b = true ∧ labelIsend b = false ∧ labelIsstr b = false) ∨
      (labelIspointer b = false ∧ labelIsend b = true ∧ labelIsstr b = false) ∨
      (labelIspointer b = false ∧ labelIsend b = false ∧ labelIsstr b = true) := by
  revert b
  decide +kernel

/-- A pointer is no end. -/
theorem not_end_of_pointer {b : Byte} (h : labelIspointer b = true) : ¬ labelIsend b = true := by
  rcases label_cases b with hc | hc | hc <;> simp_all

/-- It is no text. -/
theorem not_str_of_pointer {b : Byte} (h : labelIspointer b = true) : ¬ labelIsstr b = true := by
  rcases label_cases b with hc | hc | hc <;> simp_all

theorem not_str_of_end {b : Byte} (h : labelIsend b = true) : ¬ labelIsstr b = true := by
  rcases label_cases b with hc | hc | hc <;> simp_all

/-- A label has 63 bytes at most. -/
theorem getLabelLen_le (b : Byte) : getLabelLen b ≤ 63 := by
  unfold getLabelLen
  rw [BitVec.toNat_and]
  exact Nat.and_le_right

section Rounds

variable {v : Response} {p q : ℕ}

/-! ### Labels that are followed -/

/-- A label that is followed lies inside. -/
theorem Follow.lt_limit (h : Follow v p q) : p < v.limit := by
  cases h with
  | text hp _ => exact hp
  | pointer hp _ => omega

/-- It leads to one place. -/
theorem Follow.unique {q' : ℕ} (h : Follow v p q) (h' : Follow v p q') : q = q' := by
  cases h with
  | text hp hb =>
      cases h' with
      | text _ _ => rfl
      | pointer _ hb' => exact absurd hb (not_str_of_pointer hb')
  | pointer hp hb =>
      cases h' with
      | text _ hb' => exact absurd hb' (not_str_of_pointer hb)
      | pointer _ _ => rfl

/-- A name does not go on from an end. -/
theorem Follow.not_end (h : Follow v p q) : ¬ labelIsend (v.mem p) = true := by
  cases h with
  | text _ hb => exact fun hend => not_str_of_end hend hb
  | pointer _ hb => exact not_end_of_pointer hb

/-- What a round of `parse_name` examines without storing lies before the limit. -/
def Readable (v : Response) (p : ℕ) : Prop :=
  p < v.limit ∧ (labelIspointer (v.mem p) = true → p + 1 < v.limit)

/-- The text of the label lies before the limit. -/
def TextInside (v : Response) (p : ℕ) : Prop :=
  labelIsstr (v.mem p) = true → p + (getLabelLen (v.mem p) + 1) ≤ v.limit

/-! ### Reads inside and outside -/

/-- A word inside is read. -/
theorem dnsResponseGet16_of_le (h : p + 2 ≤ v.limit) :
    dnsResponseGet16 v p = .ok (hostWord v.mem p) := by
  unfold dnsResponseGet16
  rw [cells_of_le h]
  rfl

/-- One that reaches behind the message is not. -/
theorem dnsResponseGet16_of_lt (h : v.limit < p + 2) :
    dnsResponseGet16 v p = .error .outside := by
  unfold dnsResponseGet16
  rw [cells_of_lt (by decide) h]
  rfl

/-- A dot adds one byte. -/
theorem toNat_separate_le (s : NameState) (store : Bool) :
    (s.separate store).strLen.toNat ≤ s.strLen.toNat + 1 := by
  have hadd : (s.strLen + 1).toNat ≤ s.strLen.toNat + 1 := by
    rw [BitVec.toNat_add]
    exact Nat.mod_le _ _
  unfold NameState.separate
  cases s.firstLabelStr with
  | true => exact Nat.le_succ _
  | false => exact hadd

/-- The text of a label inside is read. -/
theorem labelText_of_inside {store : Bool} {len : ℕ}
    (h : store = true → p + (len + 1) ≤ v.limit) : ∃ str, labelText v store p len = .ok str := by
  unfold labelText
  cases store with
  | true => exact ⟨_, cells_of_le (by have := h rfl; omega)⟩
  | false => exact ⟨[], rfl⟩

/-- That of a label that reaches behind is not. -/
theorem labelText_of_not_inside {store : Bool} {len : ℕ} (hp : p < v.limit)
    (h : ¬ (store = true → p + (len + 1) ≤ v.limit)) :
    labelText v store p len = .error .outside := by
  obtain ⟨hstore, hlen⟩ := Classical.not_imp.1 h
  unfold labelText
  rw [if_pos hstore]
  exact cells_of_lt (by omega) (by omega)

section Labels

variable {store : Bool} {s : NameState}

/-! ### The cases of a round -/

/-- **One round** at the end of the name. -/
theorem parseNameRound_of_end (hp : s.label < v.limit) (hb : labelIsend (v.mem s.label) = true) :
    ∃ text, parseNameRound v store s = .ok (.inr (s.strLen + 1, text)) := by
  unfold parseNameRound
  rw [cell_of_lt hp]
  dsimp only [bind, Except.bind]
  rw [if_neg (fun hptr => not_end_of_pointer hptr hb), if_pos hb]
  exact ⟨_, rfl⟩

/-- At a pointer. -/
theorem parseNameRound_of_pointer (hp : s.label + 1 < v.limit)
    (hb : labelIspointer (v.mem s.label) = true) :
    parseNameRound v store s =
      .ok (.inl { s with label := pointerOffset (hostWord v.mem s.label) }) := by
  unfold parseNameRound getLabelOffset
  rw [cell_of_lt (by omega), dnsResponseGet16_of_le (by omega)]
  dsimp only [bind, Except.bind]
  rw [if_pos hb]
  rfl

/-- At a pointer whose second byte lies behind the message. -/
theorem parseNameRound_of_pointer_outside (hp : s.label < v.limit)
    (hlim : v.limit ≤ s.label + 1) (hb : labelIspointer (v.mem s.label) = true) :
    parseNameRound v store s = .error .outside := by
  unfold parseNameRound getLabelOffset
  rw [cell_of_lt hp, dnsResponseGet16_of_lt (by omega)]
  dsimp only [bind, Except.bind]
  rw [if_pos hb]

/-- At a text. -/
theorem parseNameRound_of_str (hp : s.label < v.limit) (hb : labelIsstr (v.mem s.label) = true) :
    parseNameRound v store s = (do
      let str ← labelText v store s.label (getLabelLen (v.mem s.label))
      pure (.inl
        { s.separate store with
          label := s.label + (getLabelLen (v.mem s.label) + 1)
          strLen := (s.separate store).strLen + BitVec.ofNat 16 (getLabelLen (v.mem s.label))
          text := (s.separate store).text ++ str })) := by
  unfold parseNameRound
  rw [cell_of_lt hp]
  dsimp only [bind, Except.bind]
  rw [if_neg (fun hptr => not_str_of_pointer hptr hb), if_neg (fun hend => not_str_of_end hend hb),
    if_pos hb]

/-- What a round of `parse_name` does: it ends at an end, goes on to the next label, or
examines a byte that it must not. -/
theorem parseNameRound_cases (v : Response) (store : Bool) (s : NameState) :
    (s.label < v.limit ∧ labelIsend (v.mem s.label) = true ∧
        ∃ text, parseNameRound v store s = .ok (.inr (s.strLen + 1, text))) ∨
      (∃ s', Follow v s.label s'.label ∧ s'.strLen.toNat ≤ s.strLen.toNat + 64 ∧
        parseNameRound v store s = .ok (.inl s')) ∨
      (¬ (Readable v s.label ∧ (store = true → TextInside v s.label)) ∧
        parseNameRound v store s = .error .outside) := by
  by_cases hp : s.label < v.limit
  swap
  · refine .inr (.inr ⟨fun h => hp h.1.1, ?_⟩)
    unfold parseNameRound
    rw [cell_of_le (Nat.not_lt.1 hp)]
    rfl
  rcases label_cases (v.mem s.label) with ⟨hb, -, -⟩ | ⟨-, hb, -⟩ | ⟨-, -, hb⟩
  · by_cases hlim : s.label + 1 < v.limit
    · exact .inr (.inl ⟨{ s with label := pointerOffset (hostWord v.mem s.label) },
        .pointer hlim hb, Nat.le_add_right _ _, parseNameRound_of_pointer hlim hb⟩)
    · refine .inr (.inr ⟨fun h => hlim (h.1.2 hb), ?_⟩)
      exact parseNameRound_of_pointer_outside hp (Nat.not_lt.1 hlim) hb
  · exact .inl ⟨hp, hb, parseNameRound_of_end hp hb⟩
  · rw [parseNameRound_of_str hp hb]
    by_cases htext : store = true → s.label + (getLabelLen (v.mem s.label) + 1) ≤ v.limit
    · obtain ⟨str, hstr⟩ := labelText_of_inside (v := v) htext
      rw [hstr]
      refine .inr (.inl ⟨_, .text hp hb, ?_, rfl⟩)
      have hsep := toNat_separate_le s store
      have hlen := getLabelLen_le (v.mem s.label)
      dsimp only
      rw [BitVec.toNat_add, BitVec.toNat_ofNat]
      have h1 := Nat.mod_le ((s.separate store).strLen.toNat +
        getLabelLen (v.mem s.label) % 2 ^ 16) (2 ^ 16)
      have h2 := Nat.mod_le (getLabelLen (v.mem s.label)) (2 ^ 16)
      omega
    · rw [labelText_of_not_inside hp htext]
      refine .inr (.inr ⟨fun h => htext fun hs => h.2 hs hb, rfl⟩)

/-! ### What a round has read -/

/-- A round that goes on follows a label and adds at most 64 to the length. -/
theorem follow_of_parseNameRound {s' : NameState} (h : parseNameRound v store s = .ok (.inl s')) :
    Follow v s.label s'.label ∧ s'.strLen.toNat ≤ s.strLen.toNat + 64 := by
  rcases parseNameRound_cases v store s with ⟨-, -, text, hr⟩ | ⟨s'', hf, hlen, hr⟩ | ⟨-, hr⟩
  · rw [hr] at h
    cases h
  · rw [hr] at h
    cases h
    exact ⟨hf, hlen⟩
  · rw [hr] at h
    cases h

/-- A round that returns is at an end. -/
theorem end_of_parseNameRound {r : BitVec 16 × List Byte}
    (h : parseNameRound v store s = .ok (.inr r)) :
    s.label < v.limit ∧ labelIsend (v.mem s.label) = true ∧ r.1 = s.strLen + 1 := by
  rcases parseNameRound_cases v store s with ⟨hlt, hend, text, hr⟩ | ⟨s', -, -, hr⟩ | ⟨-, hr⟩
  · rw [hr] at h
    cases h
    exact ⟨hlt, hend, rfl⟩
  · rw [hr] at h
    cases h
  · rw [hr] at h
    cases h

/-- A round that stops examines a byte that it must not. -/
theorem outside_of_parseNameRound {e : DnsStop} (h : parseNameRound v store s = .error e) :
    e = .outside ∧ ¬ (Readable v s.label ∧ (store = true → TextInside v s.label)) := by
  rcases parseNameRound_cases v store s with ⟨-, -, text, hr⟩ | ⟨s', -, -, hr⟩ | ⟨hnot, hr⟩
  · rw [hr] at h
    cases h
  · rw [hr] at h
    cases h
  · rw [hr] at h
    cases h
    exact ⟨rfl, hnot⟩

end Labels

end Rounds

end Dns

end Nucleo
