/-
# Building a DNS query

`send_dns_query` writes the host name into a buffer of 512 bytes label by label: it leaves
a byte free, copies up to the next dot, and then stores the length in the byte it left.
Nothing is checked: neither the end of the buffer nor the length of a label.

`buildQuery_eq` says what the loops write, or that they leave the buffer; the query is the
one of `Net.dnsQuery`.  From it come the two results: for a host name the two decoders of
`getaddrinfo.c` read the name back (`parseName_buildQuery`), and `permitted_iff` says
exactly which names are written inside the buffer with length bytes from 1 to 63.
-/
import Nucleo.DnsRecords
import Nucleo.NetClients

namespace Nucleo

namespace Dns

open Guarded Walk

/-! ## The buffer -/

/-- The query under construction: the buffer, `pq`, and the length bytes stored through
`plen`, which the code does not keep. -/
structure Query where
  mem : ℕ → Byte
  pq : ℕ
  lens : List Byte

/-- `*p = b`. -/
def Query.poke (q : Query) (p : ℕ) (b : Byte) : Except DnsStop Query :=
  if p < dnsMsgLen then .ok { q with mem := Function.update q.mem p b } else .error .outside

/-- `*pq++ = b`. -/
def Query.push (q : Query) (b : Byte) : Except DnsStop Query := do
  let q ← q.poke q.pq b
  pure { q with pq := q.pq + 1 }

/-- `*pq++ = ...` for each byte of a list. -/
def Query.pushes : Query → List Byte → Except DnsStop Query
  | q, [] => pure q
  | q, b :: l => do
      let q ← q.push b
      q.pushes l

/-- `dns_query_append16` at `pq`. -/
def Query.append16 (q : Query) (hval : BitVec 16) : Except DnsStop Query :=
  q.pushes (bytes16 (htons hval))

/-- Where the operation code is in the header. -/
def offsetOpcode : ℕ := 2
/-- Where the number of authority records is. -/
def offsetNscount : ℕ := 8
/-- Where the number of additional records is. -/
def offsetArcount : ℕ := 10

/-- The header of a query in a buffer of zeros. -/
def queryHeader (id : BitVec 16) : ℕ → Byte :=
  let m : ℕ → Byte := fun _ => 0
  let m := Memory.write m offsetId (bytes16 (htons id))
  let m := Memory.write m offsetOpcode [0x01]
  let m := Memory.write m offsetRcode [0x00]
  let m := Memory.write m offsetQdcount (bytes16 (htons 1))
  let m := Memory.write m offsetAncount (bytes16 (htons 0))
  let m := Memory.write m offsetNscount (bytes16 (htons 0))
  Memory.write m offsetArcount (bytes16 (htons 0))

/-! ## The loops -/

/-- The inner loop: copy up to a dot or the end of the string. -/
def copyLabel : List Byte → Query → Except DnsStop (List Byte × Query)
  | [], q => pure ([], q)
  | c :: pname, q =>
      if c = 0x2E then pure (c :: pname, q)
      else do
        let q ← q.push c
        copyLabel pname q

/-- `if (*pname == '.') pname++;`. -/
def skipDot : List Byte → List Byte
  | [] => []
  | c :: pname => if c = 0x2E then pname else c :: pname

/-- `*plen = pq - plen - 1;`. -/
def Query.storeLen (q : Query) (plen : ℕ) : Except DnsStop Query := do
  let len := BitVec.ofNat 8 (q.pq - plen - 1)
  let q ← q.poke plen len
  pure { q with lens := q.lens ++ [len] }

/-- The body of the outer loop. -/
def qnameRound (pname : List Byte) (q : Query) : Except DnsStop (List Byte × Query) := do
  let plen := q.pq
  let (pname, q) ← copyLabel pname { q with pq := q.pq + 1 }
  let q ← q.storeLen plen
  pure (skipDot pname, q)

/-- The outer loop; the first argument bounds the rounds. -/
def qnameLoop : ℕ → List Byte → Query → Except DnsStop Query
  | _, [], q => pure q
  | 0, _ :: _, _ => throw .running
  | fuel + 1, c :: pname, q => do
      let (pname, q) ← qnameRound (c :: pname) q
      qnameLoop fuel pname q

/-- The query for a name, as it is built in the buffer. -/
def buildQuery (id : BitVec 16) (nodename : List Byte) : Except DnsStop Query := do
  let q ← qnameLoop nodename.length nodename ⟨queryHeader id, offsetQuestion, []⟩
  let q ← q.push 0x00
  let q ← q.append16 typeA
  q.append16 classIn

/-- `send_dns_query` with the value that `send` returns: its own value, and the query if one
is sent. -/
def sendDnsQuery (sendRet : ℤ) (id : BitVec 16) (nodename : List Byte) :
    Except DnsStop (ℤ × Option Query) := do
  let q ← buildQuery id nodename
  if sendRet < 0 then pure (eaiSystem, some q) else pure (0, some q)

/-! ## What is written -/

/-- The labels of a host name as the loops find them; the first argument is the label that
is being copied. -/
def splitLabels : Option (List Byte) → List Byte → List (List Byte)
  | none, [] => []
  | some label, [] => [label]
  | label, c :: name =>
      if c = 0x2E then label.getD [] :: splitLabels none name
      else splitLabels (some (label.getD [] ++ [c])) name

/-- The length byte of a label. -/
def lenByte (label : List Byte) : Byte := BitVec.ofNat 8 label.length

section Splitting

theorem ne_dot {c : Byte} {l : List Byte} (h : (0x2E : Byte) ∉ c :: l) :
    c ≠ 0x2E ∧ (0x2E : Byte) ∉ l :=
  ⟨fun hc => h (hc ▸ List.mem_cons_self), fun hl => h (List.mem_cons_of_mem _ hl)⟩

/-- The next byte of a name. -/
theorem splitLabels_cons (label : Option (List Byte)) (c : Byte) (name : List Byte) :
    splitLabels label (c :: name)
      = if c = 0x2E then label.getD [] :: splitLabels none name
        else splitLabels (some (label.getD [] ++ [c])) name := by
  cases label <;> rfl

/-- A character goes to the label, and a dot ends it. -/
theorem qnameLabels_cons (label : Option (List Byte)) (c : Byte) (name : List Byte) :
    Net.qnameLabels label (c :: name)
      = if c = 0x2E then Net.qnameLabel (label.getD []) ++ Net.qnameLabels none name
        else Net.qnameLabels (some (label.getD [] ++ [c])) name := by
  cases label <;> rfl

/-- Characters without a dot go to the same label. -/
theorem splitLabels_append {l : List Byte} (hdot : (0x2E : Byte) ∉ l) (label : List Byte)
    (name : List Byte) :
    splitLabels (some label) (l ++ name) = splitLabels (some (label ++ l)) name := by
  induction l generalizing label with
  | nil => rw [List.nil_append, List.append_nil]
  | cons c l ih =>
      obtain ⟨hc, hl⟩ := ne_dot hdot
      rw [List.cons_append, splitLabels_cons, if_neg hc, ih hl, Option.getD_some,
        List.append_assoc, List.singleton_append]

/-- A label and what follows the dot behind it. -/
theorem splitLabels_dot {l : List Byte} (hdot : (0x2E : Byte) ∉ l) (name : List Byte) :
    splitLabels none (l ++ 0x2E :: name) = l :: splitLabels none name := by
  cases l with
  | nil => rfl
  | cons c l =>
      obtain ⟨hc, hl⟩ := ne_dot hdot
      rw [List.cons_append, splitLabels_cons, if_neg hc, splitLabels_append hl, splitLabels_cons,
        if_pos rfl]
      rfl

/-- A name without a dot is one label. -/
theorem splitLabels_last {l : List Byte} (hdot : (0x2E : Byte) ∉ l) (hne : l ≠ []) :
    splitLabels none l = [l] := by
  cases l with
  | nil => exact absurd rfl hne
  | cons c l =>
      obtain ⟨hc, hl⟩ := ne_dot hdot
      have happ := splitLabels_append hl [c] []
      rw [List.append_nil] at happ
      rw [splitLabels_cons, if_neg hc]
      exact happ

/-- The bytes that `Net.dnsQuery` has for a name are those of its labels. -/
theorem qnameLabels_eq (label : Option (List Byte)) (name : List Byte) :
    Net.qnameLabels label name = (splitLabels label name).flatMap Net.qnameLabel := by
  induction name generalizing label with
  | nil =>
      cases label with
      | none => rfl
      | some label => exact (List.flatMap_singleton _ _).symm
  | cons c name ih =>
      rw [qnameLabels_cons, splitLabels_cons]
      split_ifs with hc
      · rw [List.flatMap_cons, ih none]
      · exact ih _

/-- A string that is not empty starts with a label without dots, and a dot behind it or
nothing. -/
theorem exists_label (name : List Byte) (hne : name ≠ []) :
    (∃ l rest, name = l ++ 0x2E :: rest ∧ (0x2E : Byte) ∉ l) ∨ (0x2E : Byte) ∉ name := by
  induction name with
  | nil => exact absurd rfl hne
  | cons c name ih =>
      by_cases hc : c = 0x2E
      · exact .inl ⟨[], name, by rw [hc]; rfl, List.not_mem_nil⟩
      · by_cases hname : name = []
        · subst hname
          exact .inr fun h => hc (List.mem_singleton.1 h).symm
        · rcases ih hname with ⟨l, rest, rfl, hl⟩ | hno
          · refine .inl ⟨c :: l, rest, rfl, fun h => ?_⟩
            exact (List.mem_cons.1 h).elim (fun h' => hc h'.symm) hl
          · exact .inr fun h => (List.mem_cons.1 h).elim (fun h' => hc h'.symm) hno

end Splitting

section Writing

variable {q : Query}

/-! ### Bytes behind the query -/

/-- A byte goes behind the query. -/
theorem push_of_lt (h : q.pq < dnsMsgLen) (b : Byte) :
    q.push b = .ok ⟨Memory.write q.mem q.pq [b], q.pq + 1, q.lens⟩ := by
  unfold Query.push Query.poke
  rw [if_pos h, Memory.write_singleton]
  rfl

/-- There has to be room for it. -/
theorem push_of_le (h : dnsMsgLen ≤ q.pq) (b : Byte) : q.push b = .error .outside := by
  unfold Query.push Query.poke
  rw [if_neg (Nat.not_lt.2 h)]
  rfl

/-- Bytes are pushed if they fit. -/
theorem pushes_eq (h : q.pq ≤ dnsMsgLen) (l : List Byte) :
    q.pushes l = if q.pq + l.length ≤ dnsMsgLen
      then .ok ⟨Memory.write q.mem q.pq l, q.pq + l.length, q.lens⟩
      else .error .outside := by
  induction l generalizing q with
  | nil =>
      rw [Memory.write_nil]
      exact (if_pos h).symm
  | cons b l ih =>
      unfold Query.pushes
      rw [List.length_cons]
      by_cases hp : q.pq < dnsMsgLen
      · have hrest := ih (q := ⟨Memory.write q.mem q.pq [b], q.pq + 1, q.lens⟩) hp
        rw [show q.pq + 1 + l.length = q.pq + (l.length + 1) by omega] at hrest
        rw [push_of_lt hp]
        refine hrest.trans ?_
        rw [show q.pq + 1 = q.pq + [b].length from rfl, Memory.write_write,
          List.singleton_append]
      · rw [push_of_le (Nat.not_lt.1 hp), if_neg (by omega)]
        rfl

/-- The inner loop pushes the label. -/
theorem copyLabel_append {l rest : List Byte} (hdot : (0x2E : Byte) ∉ l)
    (hrest : rest = [] ∨ ∃ r, rest = 0x2E :: r) (q : Query) :
    copyLabel (l ++ rest) q = (do
      let q ← q.pushes l
      pure (rest, q)) := by
  induction l generalizing q with
  | nil =>
      rcases hrest with rfl | ⟨r, rfl⟩
      · rfl
      · rfl
  | cons c l ih =>
      obtain ⟨hc, hl⟩ := ne_dot hdot
      rw [List.cons_append]
      unfold copyLabel Query.pushes
      rw [if_neg hc, bind_assoc]
      congr 1
      funext q
      exact ih hl q

/-! ### Labels behind the query -/

/-- The query with more labels. -/
def Query.addLabels (q : Query) (labels : List (List Byte)) : Query where
  mem := Memory.write q.mem q.pq (labels.flatMap Net.qnameLabel)
  pq := q.pq + (labels.flatMap Net.qnameLabel).length
  lens := q.lens ++ labels.map lenByte

/-- Labels are added one after the other. -/
theorem addLabels_cons (q : Query) (l : List Byte) (labels : List (List Byte)) :
    (q.addLabels [l]).addLabels labels = q.addLabels (l :: labels) := by
  unfold Query.addLabels
  rw [Query.mk.injEq]
  refine ⟨?_, ?_, ?_⟩
  · rw [List.flatMap_singleton, List.flatMap_cons, Memory.write_write]
  · rw [List.flatMap_singleton, List.flatMap_cons, List.length_append, Nat.add_assoc]
  · rw [List.append_assoc]
    rfl

/-- No labels add nothing. -/
theorem addLabels_nil (q : Query) : q.addLabels [] = q := by
  unfold Query.addLabels
  rw [List.flatMap_nil, Memory.write_nil, List.map_nil, List.append_nil]
  rfl

/-- The length of a label is stored in front of it. -/
theorem storeLen_of_lt {plen : ℕ} (h : plen < dnsMsgLen) :
    q.storeLen plen = .ok ⟨Function.update q.mem plen (BitVec.ofNat 8 (q.pq - plen - 1)), q.pq,
      q.lens ++ [BitVec.ofNat 8 (q.pq - plen - 1)]⟩ := by
  unfold Query.storeLen Query.poke
  dsimp only
  rw [if_pos h]
  rfl

/-- There has to be room for it. -/
theorem storeLen_of_le {plen : ℕ} (h : dnsMsgLen ≤ plen) :
    q.storeLen plen = .error .outside := by
  unfold Query.storeLen Query.poke
  dsimp only
  rw [if_neg (Nat.not_lt.2 h)]
  rfl

/-- A byte is stored before what was written behind it. -/
theorem update_write (m : ℕ → Byte) (p : ℕ) (b : Byte) (l : List Byte) :
    Function.update (Memory.write m (p + 1) l) p b = Memory.write m p (b :: l) := by
  rw [Memory.write_cons]
  funext i
  by_cases hi : i = p
  · rw [hi, Function.update_self, Memory.write_of_lt _ (Nat.lt_succ_self p),
      Function.update_self]
  · rw [Function.update_of_ne hi]
    unfold Memory.write
    rw [Function.update_of_ne hi]

/-! ### The loop -/

/-- **One label**: its length byte is stored in front of it, if it fits. -/
theorem qnameRound_eq (h : q.pq ≤ dnsMsgLen) {l rest : List Byte} (hdot : (0x2E : Byte) ∉ l)
    (hrest : rest = [] ∨ ∃ r, rest = 0x2E :: r) :
    qnameRound (l ++ rest) q = if q.pq + (l.length + 1) ≤ dnsMsgLen
      then .ok (skipDot rest, q.addLabels [l])
      else .error .outside := by
  unfold qnameRound
  rw [copyLabel_append hdot hrest]
  by_cases hp : q.pq < dnsMsgLen
  · rw [pushes_eq (q := ⟨q.mem, q.pq + 1, q.lens⟩) hp,
      show q.pq + 1 + l.length = q.pq + (l.length + 1) by omega]
    by_cases hfit : q.pq + (l.length + 1) ≤ dnsMsgLen
    · rw [if_pos hfit, if_pos hfit]
      dsimp only [bind, Except.bind, pure, Except.pure]
      have hlen : q.pq + (l.length + 1) - q.pq - 1 = l.length := by omega
      rw [storeLen_of_lt hp, hlen, update_write]
      unfold Query.addLabels
      rw [List.flatMap_singleton]
      rfl
    · rw [if_neg hfit, if_neg hfit]
      rfl
  · -- nothing fits any more, not even the length byte
    rw [if_neg (by omega)]
    cases l with
    | nil =>
        dsimp only [Query.pushes, bind, Except.bind, pure, Except.pure]
        rw [storeLen_of_le (Nat.not_lt.1 hp)]
    | cons c l =>
        unfold Query.pushes
        rw [push_of_le (show dnsMsgLen ≤ q.pq + 1 by omega)]
        rfl

/-- The outer loop writes the labels of the name, if they fit. -/
theorem qnameLoop_eq {fuel : ℕ} {name : List Byte} (hfuel : name.length ≤ fuel)
    (h : q.pq ≤ dnsMsgLen) :
    qnameLoop fuel name q = if q.pq + (Net.qnameLabels none name).length ≤ dnsMsgLen
      then .ok (q.addLabels (splitLabels none name))
      else .error .outside := by
  have hnil : ∀ fuel (q : Query), q.pq ≤ dnsMsgLen →
      qnameLoop fuel [] q = if q.pq + (Net.qnameLabels none []).length ≤ dnsMsgLen
        then .ok (q.addLabels (splitLabels none [])) else .error .outside := by
    intro fuel q hq
    refine Eq.trans ?_ (if_pos hq).symm
    rw [show splitLabels none [] = [] from rfl, addLabels_nil]
    cases fuel <;> rfl
  induction fuel generalizing name q with
  | zero =>
      rw [List.eq_nil_of_length_eq_zero (Nat.le_zero.1 hfuel)]
      exact hnil 0 q h
  | succ fuel ih =>
      by_cases hne : name = []
      · rw [hne]
        exact hnil (fuel + 1) q h
      -- the label at the front, what is behind it, and what is left for the other rounds
      obtain ⟨l, rest, hname, hdot, hrest, hlabels, hshort⟩ : ∃ l rest, name = l ++ rest ∧
          (0x2E : Byte) ∉ l ∧ (rest = [] ∨ ∃ r, rest = 0x2E :: r) ∧
          splitLabels none name = l :: splitLabels none (skipDot rest) ∧
          (skipDot rest).length < name.length := by
        rcases exists_label name hne with ⟨l, r, rfl, hdot⟩ | hdot
        · refine ⟨l, 0x2E :: r, rfl, hdot, .inr ⟨r, rfl⟩, splitLabels_dot hdot r, ?_⟩
          rw [List.length_append, List.length_cons]
          show r.length < _
          omega
        · exact ⟨name, [], (List.append_nil _).symm, hdot, .inl rfl, splitLabels_last hdot hne,
            List.length_pos_of_ne_nil hne⟩
      have hfirst : qnameRound name q = if q.pq + (l.length + 1) ≤ dnsMsgLen
          then .ok (skipDot rest, q.addLabels [l]) else .error .outside := by
        rw [hname]
        exact qnameRound_eq h hdot hrest
      have hpq : (q.addLabels [l]).pq = q.pq + (l.length + 1) := by
        unfold Query.addLabels
        rw [List.flatMap_singleton]
        rfl
      have hlen : q.pq + (Net.qnameLabels none name).length
          = (q.addLabels [l]).pq + (Net.qnameLabels none (skipDot rest)).length := by
        rw [hpq, qnameLabels_eq, qnameLabels_eq, hlabels, List.flatMap_cons, List.length_append,
          Nat.add_assoc]
        rfl
      have hround : qnameLoop (fuel + 1) name q = (do
          let r ← qnameRound name q
          qnameLoop fuel r.1 r.2) := by
        cases name with
        | nil => exact absurd rfl hne
        | cons c name => rfl
      rw [hround, hfirst, hlen, hlabels, ← addLabels_cons q l (splitLabels none (skipDot rest))]
      by_cases hfit : q.pq + (l.length + 1) ≤ dnsMsgLen
      · rw [if_pos hfit]
        exact ih (Nat.lt_succ_iff.1 (hshort.trans_le hfuel)) (hpq.trans_le hfit)
      · rw [if_neg hfit, if_neg (by omega)]
        rfl

/-- Two texts go one behind the other. -/
theorem pushes_append (q : Query) (l l' : List Byte) :
    q.pushes (l ++ l') = (do
      let q ← q.pushes l
      q.pushes l') := by
  induction l generalizing q with
  | nil => rfl
  | cons b l ih =>
      show (q.push b >>= fun q => q.pushes (l ++ l'))
        = (q.push b >>= fun q => q.pushes l) >>= fun q => q.pushes l'
      rw [bind_assoc]
      congr 1
      funext q
      exact ih q

end Writing

/-! ## The query -/

/-- What follows the labels: the end of QNAME, QTYPE and QCLASS. -/
def queryTail : List Byte := [0x00] ++ bytes16 (htons typeA) ++ bytes16 (htons classIn)

/-- The query for a name, when it fits. -/
def builtQuery (id : BitVec 16) (name : List Byte) : Query where
  mem := Memory.write (queryHeader id) offsetQuestion (Net.qnameLabels none name ++ queryTail)
  pq := offsetQuestion + (Net.qnameLabels none name ++ queryTail).length
  lens := (splitLabels none name).map lenByte

/-- The query ends where the code says. -/
theorem length_dnsQuery (id : BitVec 16) (name : List Byte) :
    (Net.dnsQuery id name).length = (builtQuery id name).pq := by
  unfold Net.dnsQuery builtQuery queryTail
  simp only [List.length_append, List.length_replicate, List.length_cons, List.length_nil]
  unfold offsetQuestion
  show 2 + 2 + 2 + 6 + (Net.qnameLabels none name).length + 1 + 2 + 2
    = 12 + ((Net.qnameLabels none name).length + (1 + 2 + 2))
  omega

/-- The bytes from the start of the buffer to `pq` are the query. -/
theorem read_builtQuery (id : BitVec 16) (name : List Byte) :
    Memory.read (builtQuery id name).mem 0 (builtQuery id name).pq = Net.dnsQuery id name := by
  have hheader : Memory.read (queryHeader id) 0 12
      = bytes16 (htons id) ++ [0x01, 0x00] ++ bytes16 (htons 1) ++ List.replicate 6 0 := rfl
  unfold builtQuery offsetQuestion
  dsimp only
  rw [Memory.read_add, Memory.read_write_of_disjoint _ (Or.inl (by decide)), Nat.zero_add,
    Memory.read_write, hheader]
  unfold Net.dnsQuery queryTail
  simp only [List.append_assoc]

/-- **What the loops write**: the query, or they leave the buffer. -/
theorem buildQuery_eq (id : BitVec 16) (name : List Byte) :
    buildQuery id name = if (Net.dnsQuery id name).length ≤ dnsMsgLen
      then .ok (builtQuery id name)
      else .error .outside := by
  -- the three pushes behind the loop are one push of the tail
  have htail : buildQuery id name = (do
      let q ← qnameLoop name.length name ⟨queryHeader id, offsetQuestion, []⟩
      q.pushes queryTail) := by
    unfold buildQuery
    congr 1
    funext q
    unfold queryTail Query.append16
    rw [List.append_assoc, pushes_append]
    have hpush : q.pushes [0x00] = q.push 0x00 := bind_pure (q.push 0x00)
    rw [hpush]
    congr 1
    funext q
    exact (pushes_append q _ _).symm
  have hpq : (builtQuery id name).pq
      = offsetQuestion + (Net.qnameLabels none name).length + queryTail.length := by
    unfold builtQuery
    dsimp only
    rw [List.length_append, Nat.add_assoc]
  rw [htail, qnameLoop_eq le_rfl (show offsetQuestion ≤ dnsMsgLen by decide), length_dnsQuery,
    hpq]
  by_cases hfit : offsetQuestion + (Net.qnameLabels none name).length ≤ dnsMsgLen
  · have hlabels : Query.addLabels ⟨queryHeader id, offsetQuestion, []⟩ (splitLabels none name)
        = ⟨Memory.write (queryHeader id) offsetQuestion (Net.qnameLabels none name),
          offsetQuestion + (Net.qnameLabels none name).length,
          (splitLabels none name).map lenByte⟩ := by
      unfold Query.addLabels
      rw [← qnameLabels_eq, List.nil_append]
    rw [if_pos hfit, hlabels]
    refine (pushes_eq hfit queryTail).trans ?_
    rw [Memory.write_write]
    unfold builtQuery
    rw [List.length_append, ← Nat.add_assoc]
  · rw [if_neg hfit, if_neg (by omega)]
    rfl

/-- What `Net.sendDnsQuery` does with a query that was built. -/
def sendBuilt {η : Type} (E : Net.Environment η) (sock : ℤ) (id : BitVec 16) :
    Except DnsStop Query → Net.Client η (ℤ × BitVec 16)
  | .error e => throw (Net.Stop.ofDns e)
  | .ok q => do
      let sent ← Net.call E (.send sock (Memory.read q.mem 0 q.pq))
      if sent.ret < 0 then pure (eaiSystem, id) else pure (0, id)

/-- The client of the socket layer sends the query that is built in the buffer. -/
theorem net_sendDnsQuery_eq {η : Type} (E : Net.Environment η) (sock : ℤ) (name : List Byte) :
    Net.sendDnsQuery E sock (some name) = (do
      let id ← Net.randId E
      sendBuilt E sock id (buildQuery id name)) := by
  unfold Net.sendDnsQuery
  congr 1
  funext id
  dsimp only
  rw [buildQuery_eq]
  by_cases hfit : (Net.dnsQuery id name).length ≤ dnsMsgLen
  · rw [if_neg (Nat.not_lt.2 hfit), if_pos hfit]
    unfold sendBuilt
    dsimp only
    rw [read_builtQuery]
  · rw [if_pos (Nat.not_le.1 hfit), if_neg hfit]
    rfl

/-! ## Reading the name back -/

/-- The labels as they are written into QNAME. -/
def encodeLabels (labels : List (List Byte)) : List Byte := labels.flatMap Net.qnameLabel

/-- Labels of 1 to 63 bytes. -/
def ShortLabels (labels : List (List Byte)) : Prop := ∀ l ∈ labels, 1 ≤ l.length ∧ l.length ≤ 63

/-- The length of a short label is told from a pointer. -/
theorem lenByte_of_short {n : ℕ} (hpos : 1 ≤ n) (hle : n ≤ 63) :
    labelIsstr (BitVec.ofNat 8 n) = true ∧ getLabelLen (BitVec.ofNat 8 n) = n := by
  have hall : ∀ n < 64, 1 ≤ n →
      labelIsstr (BitVec.ofNat 8 n) = true ∧ getLabelLen (BitVec.ofNat 8 n) = n := by
    decide
  exact hall n (by omega) hpos

/-! ### The labels in the message -/

/-- Both decoders on labels that are written out: the names visited, and the position behind
the end label. -/
theorem labels_of_read {m : ℕ → Byte} {n p : ℕ} {labels : List (List Byte)}
    (hshort : ShortLabels labels)
    (hread : Memory.read m p ((encodeLabels labels).length + 1) = encodeLabels labels ++ [0])
    (hlim : p + (encodeLabels labels).length + 1 ≤ n) :
    NameLabels ⟨m, n⟩ p labels ∧
      LabelsEnd ⟨m, n⟩ p (p + (encodeLabels labels).length + 1) := by
  induction labels generalizing p with
  | nil =>
      have hlt : p < n := hlim
      have hcell : [m p] = [0] := hread
      have hend : labelIsend (m p) = true := by
        rw [List.singleton_inj.1 hcell]
        decide
      exact ⟨.zero hlt hend, .zero hlt hend⟩
  | cons l labels ih =>
      obtain ⟨⟨hpos, hle⟩, hshort⟩ := List.forall_mem_cons.1 hshort
      have hcons : encodeLabels (l :: labels) = lenByte l :: (l ++ encodeLabels labels) := rfl
      have hlen : (encodeLabels (l :: labels)).length
          = l.length + 1 + (encodeLabels labels).length := by
        rw [hcons, List.length_cons, List.length_append]
        omega
      -- the length byte, the text, and the labels behind it
      rw [hcons, List.cons_append, List.length_cons, Memory.read_succ, List.cons.injEq,
        List.length_append, Nat.add_assoc l.length, Memory.read_add,
        List.append_assoc] at hread
      obtain ⟨hbyte, hread⟩ := hread
      obtain ⟨htext, hread⟩ := List.append_inj hread (Memory.length_read _ _ _)
      obtain ⟨hstr, hsize⟩ := lenByte_of_short hpos hle
      have hmem : labelIsstr (m p) = true ∧ getLabelLen (m p) = l.length := by
        rw [hbyte]
        exact ⟨hstr, hsize⟩
      have hnext : p + 1 + l.length = p + (getLabelLen (m p) + 1) := by
        rw [hmem.2]
        omega
      have hname : Memory.read m (p + 1) (getLabelLen (m p)) = l := by
        rw [hmem.2]
        exact htext
      rw [hlen] at hlim ⊢
      obtain ⟨hlabels, hends⟩ := ih (p := p + 1 + l.length) hshort hread (by omega)
      rw [hnext] at hlabels hends
      refine ⟨?_, ?_⟩
      · have hcase := NameLabels.text (v := ⟨m, n⟩) (show p < n by omega) hmem.1 hlabels
        dsimp only at hcase
        rw [hname] at hcase
        exact hcase
      · have hsame : p + (getLabelLen (m p) + 1) + (encodeLabels labels).length + 1
            = p + (l.length + 1 + (encodeLabels labels).length) + 1 := by
          rw [hmem.2]
          omega
        rw [hsame] at hends
        exact .text (show p < n by omega) hmem.1 hends

/-- The dots of a host name separate its labels, also with one more dot at the end. -/
theorem splitLabels_joined {labels : List (List Byte)} (hne : labels ≠ [])
    (hdot : ∀ l ∈ labels, (0x2E : Byte) ∉ l) (hlast : ∀ l ∈ labels, l ≠ []) (trailing : Bool) :
    splitLabels none (joined labels ++ if trailing then [0x2E] else []) = labels := by
  induction labels with
  | nil => exact absurd rfl hne
  | cons l labels ih =>
      obtain ⟨hl, hdot⟩ := List.forall_mem_cons.1 hdot
      obtain ⟨hlne, hlast⟩ := List.forall_mem_cons.1 hlast
      by_cases hlabels : labels = []
      · subst hlabels
        rw [joined_singleton]
        cases trailing with
        | true => exact splitLabels_dot hl []
        | false =>
            rw [if_neg Bool.false_ne_true, List.append_nil]
            exact splitLabels_last hl hlne
      · rw [joined_cons l hlabels, List.append_assoc, List.cons_append, splitLabels_dot hl,
          ih hlabels hdot hlast]

/-- The bytes behind the header of a query. -/
theorem length_encodeLabels {labels : List (List Byte)} (hne : labels ≠ []) :
    (encodeLabels labels).length = (joined labels).length + 1 := by
  induction labels with
  | nil => exact absurd rfl hne
  | cons l labels ih =>
      have hcons : (encodeLabels (l :: labels)).length
          = l.length + 1 + (encodeLabels labels).length := by
        show (lenByte l :: (l ++ encodeLabels labels)).length = _
        rw [List.length_cons, List.length_append]
        omega
      by_cases hlabels : labels = []
      · rw [hcons, hlabels, joined_singleton]
        rfl
      · rw [hcons, ih hlabels, joined_cons l hlabels, List.length_append, List.length_cons]
        omega

/-- **Decoding undoes encoding.**  For a host name of at most 253 bytes, with or without a
dot at its end, the query is built; `parse_name` reads the name back from it without the
dot, and `skip_labels` ends on QTYPE, four bytes before the end. -/
theorem parseName_buildQuery (id : BitVec 16) {labels : List (List Byte)} (hne : labels ≠ [])
    (hshort : ShortLabels labels) (hchars : ∀ l ∈ labels, (0x2E : Byte) ∉ l ∧ (0x00 : Byte) ∉ l)
    (trailing : Bool) {name : List Byte}
    (hname : name = joined labels ++ if trailing then [0x2E] else [])
    (hlen : name.length ≤ 253) :
    ∃ q, buildQuery id name = .ok q ∧ Memory.read q.mem 0 q.pq = Net.dnsQuery id name ∧
      ∀ fuel, q.pq < fuel →
        (∃ n : BitVec 16, parseName ⟨q.mem, q.pq⟩ fuel true offsetQuestion
            = .ok (n, joined labels ++ [0]) ∧ n.toNat = (joined labels).length + 1) ∧
        skipLabels ⟨q.mem, q.pq⟩ fuel offsetQuestion = .ok (some (q.pq - 4)) ∧
        hostWord q.mem (q.pq - 4) = typeA := by
  -- a dot at the end makes no label of its own
  have hsplit : splitLabels none name = labels := by
    rw [hname]
    refine splitLabels_joined hne (fun l hl => (hchars l hl).1) (fun l hl hnil => ?_) trailing
    have hpos := (hshort l hl).1
    rw [hnil] at hpos
    exact absurd hpos (by decide)
  have hqname : Net.qnameLabels none name = encodeLabels labels := by
    rw [qnameLabels_eq, hsplit]
    rfl
  have hjoined : (joined labels).length ≤ 253 := by
    rw [hname, List.length_append] at hlen
    omega
  -- QTYPE and QCLASS are the last four bytes
  have hpq : (builtQuery id name).pq = offsetQuestion + (encodeLabels labels).length + 1 + 4 := by
    unfold builtQuery
    rw [hqname, List.length_append]
    show _ = offsetQuestion + _ + 5
    show offsetQuestion + (_ + 5) = _
    omega
  have hsize : (builtQuery id name).pq ≤ 271 := by
    rw [hpq, length_encodeLabels hne]
    unfold offsetQuestion
    omega
  have hmem : (builtQuery id name).mem
      = Memory.write (Memory.write (queryHeader id) offsetQuestion (encodeLabels labels ++ [0x00]))
        (offsetQuestion + (encodeLabels labels ++ [0x00]).length)
        (bytes16 (htons typeA) ++ bytes16 (htons classIn)) := by
    rw [Memory.write_write, ← hqname]
    unfold builtQuery queryTail
    simp only [List.append_assoc]
  have hread : Memory.read (builtQuery id name).mem offsetQuestion
      ((encodeLabels labels).length + 1) = encodeLabels labels ++ [0] := by
    have hpart : (encodeLabels labels).length + 1 = (encodeLabels labels ++ [0x00]).length := by
      rw [List.length_append]
      rfl
    rw [hmem, hpart, Memory.read_write_of_disjoint _ (Or.inl le_rfl)]
    exact Memory.read_write _ _ _
  -- the walk of `parse_name` is the list of labels, since nothing behind them overwrites it
  obtain ⟨hlabels, hends⟩ := labels_of_read (n := (builtQuery id name).pq) hshort hread (by omega)
  have hfit : (Net.dnsQuery id name).length ≤ dnsMsgLen := by
    rw [length_dnsQuery]
    unfold dnsMsgLen
    omega
  refine ⟨builtQuery id name, ?_, read_builtQuery id name, fun fuel hfuel => ⟨?_, ?_, ?_⟩⟩
  · rw [buildQuery_eq, if_pos hfit]
  · refine ⟨_, (parseName_of_labels hlabels true hfuel).1, ?_⟩
    have hcount := toNat_passResult (show (builtQuery id name).pq ≤ dnsMsgLen by
      unfold dnsMsgLen; omega) hlabels true
    rw [List.length_append] at hcount
    exact hcount
  · rw [skipLabels_of_labelsEnd hends hfuel, hpq]
    rfl
  · have htype := Memory.read_write (Memory.write (queryHeader id) offsetQuestion
      (encodeLabels labels ++ [0x00])) (offsetQuestion + (encodeLabels labels ++ [0x00]).length)
      (bytes16 (htons typeA) ++ bytes16 (htons classIn))
    have hfour : (builtQuery id name).pq - 4
        = offsetQuestion + (encodeLabels labels ++ [0x00]).length := by
      rw [hpq, List.length_append]
      rfl
    rw [← hmem, ← hfour, show bytes16 (htons typeA) ++ bytes16 (htons classIn) = [0, 1, 0, 1] by
      decide] at htype
    simp only [List.length_cons, List.length_nil, Memory.read_succ, List.cons.injEq] at htype
    unfold hostWord
    rw [htype.1, htype.2.1]
    decide

/-- `ab.c.` is read back as `ab.c`. -/
theorem parseName_buildQuery_two :
    ∃ q, buildQuery 7 [0x61, 0x62, 0x2E, 0x63, 0x2E] = .ok q ∧
      ∃ n : BitVec 16, parseName ⟨q.mem, q.pq⟩ (q.pq + 1) true offsetQuestion
        = .ok (n, [0x61, 0x62, 0x2E, 0x63, 0x00]) := by
  have hshort : ShortLabels [[0x61, 0x62], [0x63]] := by
    unfold ShortLabels
    decide
  have hname : ([0x61, 0x62, 0x2E, 0x63, 0x2E] : List Byte)
      = joined [[0x61, 0x62], [0x63]] ++ if true then [0x2E] else [] := rfl
  obtain ⟨q, hq, -, hdecode⟩ := parseName_buildQuery 7 (List.cons_ne_nil _ _) hshort
    (by decide) true hname (by decide)
  obtain ⟨⟨n, hparse, -⟩, -⟩ := hdecode (q.pq + 1) (Nat.lt_succ_self _)
  exact ⟨q, hq, n, hparse⟩

/-! ## Names that do not fit -/

/-- What is asked of `send_dns_query`: it stays inside its buffer, and a query that it sends
has length bytes from 1 to 63. -/
def Permitted (r : Except DnsStop (ℤ × Option Query)) : Prop :=
  ∃ ret sent, r = .ok (ret, sent) ∧ ∀ q ∈ sent, ∀ b ∈ q.lens, 1 ≤ b.toNat ∧ b.toNat ≤ 63

/-- The same, and each length byte is the length of its label. -/
def PermittedExactly (name : List Byte) (r : Except DnsStop (ℤ × Option Query)) : Prop :=
  Permitted r ∧ ∀ ret q, r = .ok (ret, some q) →
    q.lens.map BitVec.toNat = (splitLabels none name).map List.length

/-- The size of the query for a name. -/
def querySize (name : List Byte) : ℕ :=
  17 + ((splitLabels none name).map fun l => l.length + 1).sum

/-! ### What is sent -/

/-- Its size is that of the name. -/
theorem length_dnsQuery_eq (id : BitVec 16) (name : List Byte) :
    (Net.dnsQuery id name).length = querySize name := by
  have hlabels : (Net.qnameLabels none name).length
      = ((splitLabels none name).map fun l => l.length + 1).sum := by
    rw [qnameLabels_eq, List.length_flatMap]
    rfl
  rw [length_dnsQuery]
  unfold builtQuery querySize
  rw [← hlabels, List.length_append]
  show 12 + (_ + 5) = _
  omega

/-- What is sent is the query that fits; there is no other check. -/
theorem sendDnsQuery_eq (sendRet : ℤ) (id : BitVec 16) (name : List Byte) :
    sendDnsQuery sendRet id name = if querySize name ≤ dnsMsgLen
      then .ok (if sendRet < 0 then eaiSystem else 0, some (builtQuery id name))
      else .error .outside := by
  unfold sendDnsQuery
  rw [buildQuery_eq, length_dnsQuery_eq]
  split_ifs <;> rfl

/-- **All lengths are permitted** when those of the labels are. -/
theorem permitted_builtQuery (id : BitVec 16) (name : List Byte) :
    (∀ b ∈ (builtQuery id name).lens, 1 ≤ b.toNat ∧ b.toNat ≤ 63) ↔
      ∀ l ∈ splitLabels none name, 1 ≤ l.length % 256 ∧ l.length % 256 ≤ 63 := by
  unfold builtQuery
  rw [List.forall_mem_map]
  exact Iff.rfl

/-- **The names that are written as they must be** fit the buffer and have labels whose
lengths leave 1 to 63 modulo 256; or just 1 to 63, if the length byte is to be the length.
All other names are sent with a wrong length byte or overrun the buffer: none is refused. -/
theorem permitted_iff (sendRet : ℤ) (id : BitVec 16) (name : List Byte) :
    (Permitted (sendDnsQuery sendRet id name) ↔
        querySize name ≤ dnsMsgLen ∧
          ∀ l ∈ splitLabels none name, 1 ≤ l.length % 256 ∧ l.length % 256 ≤ 63) ∧
      (PermittedExactly name (sendDnsQuery sendRet id name) ↔
        querySize name ≤ dnsMsgLen ∧ ShortLabels (splitLabels none name)) := by
  rw [sendDnsQuery_eq]
  by_cases hfit : querySize name ≤ dnsMsgLen
  · have hpermitted : Permitted (.ok (if sendRet < 0 then eaiSystem else 0,
        some (builtQuery id name))) ↔
        ∀ l ∈ splitLabels none name, 1 ≤ l.length % 256 ∧ l.length % 256 ≤ 63 := by
      rw [← permitted_builtQuery id name]
      constructor
      · rintro ⟨ret, sent, hr, hsent⟩
        cases hr
        exact hsent _ rfl
      · intro hlens
        refine ⟨_, _, rfl, fun q hq => ?_⟩
        cases hq
        exact hlens
    rw [if_pos hfit, and_iff_right hfit, and_iff_right hfit]
    refine ⟨hpermitted, ?_⟩
    unfold PermittedExactly
    rw [hpermitted]
    have hlens : (builtQuery id name).lens.map BitVec.toNat
        = (splitLabels none name).map fun l => l.length % 256 := by
      unfold builtQuery
      rw [List.map_map]
      rfl
    constructor
    · rintro ⟨hmod, hexact⟩ l hl
      have hsame := hexact _ _ rfl
      rw [hlens, List.map_inj_left] at hsame
      rw [← hsame l hl]
      exact hmod l hl
    · intro hshort
      have hmod : ∀ l ∈ splitLabels none name, l.length % 256 = l.length := by
        intro l hl
        have hle := (hshort l hl).2
        exact Nat.mod_eq_of_lt (by omega)
      refine ⟨fun l hl => ?_, fun ret q hq => ?_⟩
      · rw [hmod l hl]
        exact hshort l hl
      · cases hq
        rw [hlens, List.map_inj_left]
        exact hmod
  · -- the buffer is overrun, whatever the labels are
    have hno : ¬ Permitted (.error .outside) := by
      rintro ⟨ret, sent, hr, -⟩
      cases hr
    rw [if_neg hfit]
    exact ⟨iff_of_false hno fun h => hfit h.1, iff_of_false (fun h => hno h.1) fun h => hfit h.1⟩

/-- The empty label in front of a dot gets the length byte 0, which ends the name, and the
query is sent. -/
theorem permitted_fails : ¬ ∀ (sendRet : ℤ) (id : BitVec 16) (name : List Byte),
    Permitted (sendDnsQuery sendRet id name) := by
  intro h
  obtain ⟨ret, sent, hr, hsent⟩ := h 0 0 [0x2E, 0x61]
  rw [sendDnsQuery_eq, if_pos (by decide)] at hr
  cases hr
  exact absurd (hsent _ rfl 0 (by decide)) (by decide)

end Dns

end Nucleo
