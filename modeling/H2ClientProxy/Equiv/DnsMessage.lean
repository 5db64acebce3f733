import H2ClientProxy.Equiv.DnsName

/-!
# Responses on the wire

* `MessageIn`: a datagram as `decode_response` reads it, with its own arithmetic, every byte in the
  datagram.
* `decodeResponse_inBounds_iff`: the decoder ends and reads only bytes of the datagram just when there
  is such a message.
* `ResponseAt`: a response as RFC 1035 has it.  If its pointers stay below the offset 256 and only its
  last record may have 256 bytes of data or more, then the decoder finds its question and its
  addresses (`ResponseAt.messageIn`).
-/

namespace H2ClientProxy.Dns

open Wp

/-! ### Messages as the decoder reads them -/

/-- A field of two bytes, as the source computes it. -/
def pairAt (msg : Bytes) (p : ℕ) : Option ℕ := do
  let hi ← msg[p]?
  let lo ← msg[p + 1]?
  return hi.toNat * 255 + lo.toNat

/-- The questions from `p` to `q`: names, each with four bytes behind it that are not read. -/
inductive QuestionsIn (msg : Bytes) : ℕ → Bool → ℕ → ℕ → List Bytes → Prop
  | none {first : Bool} {p : ℕ} : QuestionsIn msg 0 first p p []
  | more {count p p1 q : ℕ} {first : Bool} {host : Bytes} {hosts : List Bytes}
      (name : NameIn msg first p emptyName p1 host)
      (rest : QuestionsIn msg count false (p1 + 4) q hosts) :
      QuestionsIn msg (count + 1) first p q (host :: hosts)

/-- What is read of the data of a record at `p`. -/
inductive RdataIn (msg : Bytes) (p : ℕ) : ℕ → ResponseRecord → Prop
  | address (h : p + 4 ≤ msg.length) :
      RdataIn msg p 1 { type := (1 : ℕ), ip := addressText ((msg.drop p).take 4) }
  | name {q : ℕ} {cname : Bytes} (h : NameIn msg false p emptyName q cname) :
      RdataIn msg p 5 { type := (5 : ℕ), cname := cstr cname }
  | other {type : ℕ} (h1 : type ≠ 1) (h5 : type ≠ 5) : RdataIn msg p type { type := type }

/-- The answers from `p` on: a name, ten bytes, and the data, over which the cursor is advanced. -/
inductive AnswersIn (msg : Bytes) : ℕ → ℕ → List ResponseRecord → Prop
  | none {p : ℕ} : AnswersIn msg 0 p []
  | more {count p p1 type rdlen : ℕ} {host : Bytes} {resp : ResponseRecord}
      {resps : List ResponseRecord} (name : NameIn msg false p emptyName p1 host)
      (htype : pairAt msg p1 = some type) (hrdlen : pairAt msg (p1 + 8) = some rdlen)
      (rdata : RdataIn msg (p1 + 10) type resp) (rest : AnswersIn msg count (p1 + 10 + rdlen) resps) :
      AnswersIn msg (count + 1) p (resp :: resps)

/-- A datagram from which `decode_response` reads `m`. -/
def MessageIn (msg : Bytes) (m : Decoded) : Prop :=
  ∃ flags dcount answerCount q, msg[3]? = some flags ∧ pairAt msg 4 = some dcount ∧
    pairAt msg 6 = some answerCount ∧ QuestionsIn msg dcount true 12 q m.hosts ∧
    AnswersIn msg answerCount q m.resps ∧ m.rcode = (flags &&& 0xf).toNat

section Messages

variable {msg mem : Bytes} {p q v : ℕ}

theorem pairAt_eq_some (h : pairAt msg p = some v) :
    ∃ hi lo, msg[p]? = some hi ∧ msg[p + 1]? = some lo ∧ v = hi.toNat * 255 + lo.toNat := by
  unfold pairAt at h
  obtain ⟨hi, hhi, h⟩ := Option.bind_eq_some_iff.1 h
  obtain ⟨lo, hlo, h⟩ := Option.bind_eq_some_iff.1 h
  exact ⟨hi, lo, hhi, hlo, (Option.some.inj h).symm⟩

theorem pairAt_of_getElem? {hi lo : UInt8} (hhi : msg[p]? = some hi)
    (hlo : msg[p + 1]? = some lo) : pairAt msg p = some (hi.toNat * 255 + lo.toNat) := by
  unfold pairAt
  rw [hhi, hlo]
  rfl

theorem lt_of_pairAt (h : pairAt msg p = some v) : p + 1 < msg.length := by
  obtain ⟨hi, lo, -, hlo, -⟩ := pairAt_eq_some h
  exact (List.getElem?_eq_some_iff.1 hlo).1

/-- There is a field wherever there are two bytes. -/
theorem exists_pairAt (h : p + 1 < msg.length) : ∃ v, pairAt msg p = some v :=
  ⟨_, pairAt_of_getElem? (List.getElem?_eq_getElem (by omega)) (List.getElem?_eq_getElem h)⟩

theorem finds_readPair (hmem : msg <+: mem) (h : pairAt msg p = some v) :
    Finds msg.length (readPair mem p) v := by
  obtain ⟨hi, lo, hhi, hlo, rfl⟩ := pairAt_eq_some h
  exact (finds_readByte hmem hhi).bind ((finds_readByte hmem hlo).bind (.pure _ _))

theorem only_readPair (hmem : msg <+: mem) (p : ℕ) :
    Only msg.length (readPair mem p) fun v => pairAt msg p = some v := by
  refine (only_readByte hmem p).bind fun hi => (only_readByte hmem (p + 1)).bind fun lo => .pure ?_
  exact fun hlo hhi => pairAt_of_getElem? hhi hlo

/-! The questions. -/

theorem QuestionsIn.decode (hmem : msg <+: mem) {count : ℕ} {first : Bool} {hosts : List Bytes}
    (h : QuestionsIn msg count first p q hosts) : ∃ n, ∀ steps, n ≤ steps →
      Finds msg.length (decodeRequests mem steps count first p) (q, hosts) := by
  induction h with
  | none => exact ⟨0, fun _ _ => .pure _ _⟩
  | more name _ ih =>
    obtain ⟨n1, h1⟩ := name.decode hmem
    obtain ⟨n2, h2⟩ := ih
    refine ⟨max n1 n2, fun steps hsteps => ?_⟩
    rw [decodeRequests, decodeRequestItems]
    refine Finds.bind ((h1 steps (by omega)).bind (.pure _ _)) ?_
    exact (h2 steps (by omega)).bind (.pure _ _)

theorem only_decodeRequests (hmem : msg <+: mem) (steps : ℕ) : ∀ (count : ℕ) (first : Bool) (p : ℕ),
    Only msg.length (decodeRequests mem steps count first p)
      fun r => QuestionsIn msg count first p r.1 r.2
  | 0, _, _ => .pure .none
  | count + 1, first, p => by
    rw [decodeRequests]
    have hname : Only msg.length (decodeRequestItems mem first steps p) fun r =>
        ∃ p1, NameIn msg first p emptyName p1 r.2 ∧ r.1 = p1 + 4 :=
      (only_decodeEncStr hmem first steps p emptyName).bind fun r => .pure fun h => ⟨r.1, h, rfl⟩
    refine hname.bind fun r => ?_
    refine (only_decodeRequests hmem steps count false r.1).bind fun r' => .pure ?_
    rintro hrest ⟨p1, h, hp⟩
    rw [hp] at hrest
    exact .more h hrest

/-! The answers. -/

theorem RdataIn.decode (hmem : msg <+: mem) {type : ℕ} {resp : ResponseRecord}
    (h : RdataIn msg p type resp) : ∃ n, ∀ steps, n ≤ steps →
      Finds msg.length (decodeRdata mem steps type p) resp := by
  unfold decodeRdata
  cases h with
  | address h =>
    refine ⟨0, fun steps _ => ?_⟩
    rw [if_pos rfl]
    exact (finds_readBytes hmem 4 p h).bind (.pure _ _)
  | name h =>
    obtain ⟨n, hn⟩ := h.decode hmem
    refine ⟨n, fun steps hsteps => ?_⟩
    rw [if_neg (by decide), if_pos rfl]
    exact (hn steps hsteps).bind (.pure _ _)
  | other h1 h5 =>
    refine ⟨0, fun steps _ => ?_⟩
    rw [if_neg h1, if_neg h5]
    exact .pure _ _

theorem only_decodeRdata (hmem : msg <+: mem) (type steps p : ℕ) :
    Only msg.length (decodeRdata mem steps type p) (RdataIn msg p type) := by
  unfold decodeRdata
  split_ifs with h1 h5
  · subst h1
    refine (only_readBytes hmem 4 p).bind fun cs => .pure ?_
    rintro ⟨hle, rfl⟩
    exact .address (hle (by decide))
  · subst h5
    exact (only_decodeEncStr hmem false steps p emptyName).bind fun r => .pure fun h => .name h
  · exact .pure (.other h1 h5)

theorem AnswersIn.decode (hmem : msg <+: mem) {count : ℕ} {resps : List ResponseRecord}
    (h : AnswersIn msg count p resps) : ∃ n, ∀ steps, n ≤ steps →
      Finds msg.length (decodeAnswers mem steps count p) resps := by
  induction h with
  | none => exact ⟨0, fun _ _ => .pure _ _⟩
  | @more count p p1 type rdlen host resp resps name htype hrdlen rdata _ ih =>
    obtain ⟨n1, h1⟩ := name.decode hmem
    obtain ⟨n2, h2⟩ := rdata.decode hmem
    obtain ⟨n3, h3⟩ := ih
    refine ⟨max n1 (max n2 n3), fun steps hsteps => ?_⟩
    have hlt := lt_of_pairAt hrdlen
    have hclass : ∃ v, pairAt msg (p1 + 2) = some v := exists_pairAt (by omega)
    obtain ⟨qclass, hqclass⟩ := hclass
    rw [decodeAnswers, decodeResopnseItem]
    refine Finds.bind (a := (p1 + 10 + rdlen, resp)) ((h1 steps (by omega)).bind ?_)
      ((h3 steps (by omega)).bind (.pure _ _))
    refine (finds_readPair hmem htype).bind ((finds_readPair hmem hqclass).bind ?_)
    refine (finds_readBytes hmem 4 (p1 + 4) (by omega)).bind ?_
    refine (finds_readPair hmem hrdlen).bind ?_
    exact (h2 steps (by omega)).bind (.pure _ _)

theorem only_decodeAnswers (hmem : msg <+: mem) (steps : ℕ) : ∀ count p : ℕ,
    Only msg.length (decodeAnswers mem steps count p) (AnswersIn msg count p)
  | 0, _ => .pure .none
  | count + 1, p => by
    rw [decodeAnswers]
    have hitem : Only msg.length (decodeResopnseItem mem steps p) fun r => ∃ p1 host type rdlen,
        NameIn msg false p emptyName p1 host ∧ pairAt msg p1 = some type ∧
        pairAt msg (p1 + 8) = some rdlen ∧ RdataIn msg (p1 + 10) type r.2 ∧
        r.1 = p1 + 10 + rdlen := by
      rw [decodeResopnseItem]
      refine (only_decodeEncStr hmem false steps p emptyName).bind fun r => ?_
      refine (only_readPair hmem r.1).bind fun type => (only_readPair hmem _).bind fun _ => ?_
      refine (only_readBytes hmem 4 _).bind fun _ => (only_readPair hmem _).bind fun rdlen => ?_
      refine (only_decodeRdata hmem type steps _).bind fun resp => .pure ?_
      exact fun hrdata hrdlen _ _ htype hname =>
        ⟨r.1, r.2, type, rdlen, hname, htype, hrdlen, hrdata, rfl⟩
    refine hitem.bind fun r => ?_
    refine (only_decodeAnswers hmem steps count r.1).bind fun resps => .pure ?_
    rintro hrest ⟨p1, host, type, rdlen, hname, htype, hrdlen, hrdata, hp⟩
    rw [hp] at hrest
    exact .more hname htype hrdlen hrdata hrest

/-! The message. -/

theorem recvBuf_front (msg : Bytes) : msg <+: recvBuf msg := List.prefix_append ..

/-- With enough steps the decoder finds the message. -/
theorem MessageIn.decode {m : Decoded} (h : MessageIn msg m) : ∃ n, ∀ steps, n ≤ steps →
    Finds msg.length (decodeResponse (recvBuf msg) steps) m := by
  obtain ⟨flags, dcount, answerCount, q, hflags, hd, ha, hq, hans, hrcode⟩ := h
  have hmem := recvBuf_front msg
  obtain ⟨n1, h1⟩ := hq.decode hmem
  obtain ⟨n2, h2⟩ := hans.decode hmem
  refine ⟨max n1 n2, fun steps hsteps => ?_⟩
  have hlen := lt_of_pairAt ha
  have hid : ∃ v, pairAt msg 0 = some v := exists_pairAt (by omega)
  obtain ⟨id, hid⟩ := hid
  have h2' : 2 < msg.length := by omega
  rw [decodeResponse]
  refine (finds_readPair hmem hid).bind ((finds_readByte hmem (List.getElem?_eq_getElem h2')).bind ?_)
  refine (finds_readByte hmem hflags).bind ?_
  refine (finds_readPair hmem hd).bind ((finds_readPair hmem ha).bind ?_)
  refine (h1 steps (by omega)).bind ((h2 steps (by omega)).bind ?_)
  rw [← hrcode]
  exact .pure _ _

/-- If the decoder ends and has read only bytes of the datagram, there is a message. -/
theorem only_decodeResponse (msg : Bytes) (steps : ℕ) :
    Only msg.length (decodeResponse (recvBuf msg) steps) (MessageIn msg) := by
  have hmem := recvBuf_front msg
  rw [decodeResponse]
  refine (only_readPair hmem 0).bind fun _ => (only_readByte hmem 2).bind fun _ => ?_
  refine (only_readByte hmem 3).bind fun flags => (only_readPair hmem 4).bind fun dcount => ?_
  refine (only_readPair hmem 6).bind fun answerCount => ?_
  refine (only_decodeRequests hmem steps dcount true 12).bind fun r => ?_
  refine (only_decodeAnswers hmem steps answerCount r.1).bind fun resps => .pure ?_
  exact fun hans hq ha hd hflags _ _ =>
    ⟨flags, dcount, answerCount, r.1, hflags, hd, ha, hq, hans, rfl⟩

/-- The decoder ends, and every byte that it reads lies inside the datagram. -/
def DecodesInside (msg : Bytes) : Prop :=
  ∃ steps m reads, decodeResponse (recvBuf msg) steps [] = .ok m reads ∧ ∀ i ∈ reads, i < msg.length

theorem exists_messageIn (h : DecodesInside msg) : ∃ m, MessageIn msg m := by
  obtain ⟨steps, m, reads, hrun, hreads⟩ := h
  have honly := only_decodeResponse msg steps []
  rw [wp_of_ok hrun] at honly
  obtain ⟨new, rfl, hm⟩ := honly
  exact ⟨m, hm hreads⟩

/-- **Termination and bounds of the decoder.**  For any datagram, the decoder ends and reads only
bytes of the datagram just when the datagram is a message by the decoder's own arithmetic. -/
theorem decodeResponse_inBounds_iff (msg : Bytes) : DecodesInside msg ↔ ∃ m, MessageIn msg m := by
  refine ⟨exists_messageIn, ?_⟩
  rintro ⟨m, hm⟩
  obtain ⟨n, hn⟩ := hm.decode
  obtain ⟨reads, hrun, hreads⟩ := (hn n le_rfl).eq_ok
  exact ⟨n, m, reads, hrun, hreads⟩

/-- A message whose only name is a pointer to itself. -/
def selfPointer : Bytes := [0, 1, 129, 128, 0, 1, 0, 0, 0, 0, 0, 0, 0xc0, 12, 0, 1, 0, 1]

theorem not_nameIn_selfPointer {first : Bool} {buf buf' : Bytes}
    (h : NameIn selfPointer first p buf q buf') : p ≠ 12 := by
  induction h with
  | stop h => rintro rfl; exact absurd h (by decide)
  | pointer _ hlo _ ih =>
    rintro rfl
    have hlo' : (12 : UInt8) = _ := Option.some.inj hlo
    exact ih (by rw [← hlo']; rfl)
  | label h _ hptr =>
    rintro rfl
    exact hptr (Option.some.inj h).symm

/-- A name may point to itself, and then no reading of it ends. -/
theorem not_decodesInside : ¬ ∀ msg : Bytes, msg.length ≤ 512 → DecodesInside msg := by
  intro h
  obtain ⟨m, flags, dcount, answerCount, q, -, hd, -, hq, -, -⟩ :=
    exists_messageIn (h selfPointer (by decide))
  have hone : dcount = 1 := Option.some.inj (hd.symm.trans (by decide))
  subst hone
  generalize m.hosts = hosts at hq
  cases hq with
  | more name _ => exact not_nameIn_selfPointer name rfl

end Messages

/-! ### Responses of RFC 1035 -/

/-- A field of two bytes, the higher one first. -/
def wordAt (msg : Bytes) (p : ℕ) : Option ℕ := do
  let hi ← msg[p]?
  let lo ← msg[p + 1]?
  return hi.toNat * 256 + lo.toNat

/-- A resource record, as far as it matters. -/
structure ResourceRecord where
  type : ℕ
  rdata : Bytes
  deriving DecidableEq, Repr

/-- The names on the wire have at most 255 bytes. -/
def NameAt.Whole (msg : Bytes) (limit p : ℕ) (labels : List Bytes) (q : ℕ) : Prop :=
  NameAt msg limit p labels q ∧ (dotted labels).length + 1 ≤ 255

/-- The record at `p`, which ends in front of `q`: a name, type, class and time to live, and the data
with its length.  The data of an address record are four bytes, those of an alias a name. -/
def RecordAt (msg : Bytes) (limit p : ℕ) (record : ResourceRecord) (q : ℕ) : Prop :=
  ∃ p1 labels, NameAt.Whole msg limit p labels p1 ∧
    wordAt msg p1 = some record.type ∧ wordAt msg (p1 + 8) = some record.rdata.length ∧
    record.rdata <+: msg.drop (p1 + 10) ∧ q = p1 + 10 + record.rdata.length ∧
    (record.type = 1 → record.rdata.length = 4) ∧
    (record.type = 5 → ∃ cname, NameAt.Whole msg limit (p1 + 10) cname q)

/-- The answers from `p` on. -/
inductive AnswersAt (msg : Bytes) (limit : ℕ) : ℕ → List ResourceRecord → Prop
  | none {p : ℕ} (h : p ≤ msg.length) : AnswersAt msg limit p []
  | more {p q : ℕ} {record : ResourceRecord} {records : List ResourceRecord}
      (head : RecordAt msg limit p record q) (rest : AnswersAt msg limit q records) :
      AnswersAt msg limit p (record :: records)

/-- A response with one question and these answers.  Its pointers lead to offsets below `limit`;
there are none above `2 ^ 14`.  What follows the answers does not matter. -/
structure ResponseAt (msg : Bytes) (limit : ℕ) (question : List Bytes)
    (answers : List ResourceRecord) : Prop where
  size : msg.length ≤ 512
  isResponse : ∃ flags, msg[2]? = some flags ∧ 128 ≤ flags
  one : wordAt msg 4 = some 1
  count : wordAt msg 6 = some answers.length
  exists_answers : ∃ q, NameAt.Whole msg limit 12 question q ∧ AnswersAt msg limit (q + 4) answers

/-- The addresses of the address records, in the order of the message. -/
def addresses (answers : List ResourceRecord) : List Bytes :=
  answers.filterMap fun record => if record.type = 1 then some (addressText record.rdata) else none

/-- Every record but the last has less than 256 bytes of data. -/
def shortButLast (answers : List ResourceRecord) : Prop :=
  ∀ record ∈ answers.dropLast, record.rdata.length < 256

section Responses

variable {msg : Bytes} {limit p q v : ℕ} {question : List Bytes} {answers : List ResourceRecord}

theorem NameAt.lt {labels : List Bytes} (h : NameAt msg limit p labels q) : p < q := by
  induction h with
  | root => omega
  | pointer => omega
  | label _ _ _ _ _ ih => omega

/-- The two ways of reading a field agree below 256, and see the same types 1 and 5. -/
theorem pairAt_of_wordAt (h : wordAt msg p = some v) : ∃ v', pairAt msg p = some v' ∧
    (v < 256 → v' = v) ∧ (v' = 1 ↔ v = 1) ∧ (v' = 5 ↔ v = 5) := by
  unfold wordAt at h
  obtain ⟨hi, hhi, h⟩ := Option.bind_eq_some_iff.1 h
  obtain ⟨lo, hlo, h⟩ := Option.bind_eq_some_iff.1 h
  have hv : hi.toNat * 256 + lo.toNat = v := Option.some.inj h
  have hlt := lo.toNat_lt
  refine ⟨_, pairAt_of_getElem? hhi hlo, ?_⟩
  omega

/-- A record takes at least eleven bytes. -/
theorem RecordAt.add_le {record : ResourceRecord} (h : RecordAt msg limit p record q) :
    p + 11 ≤ q ∧ q ≤ msg.length := by
  obtain ⟨p1, labels, ⟨hname, -⟩, -, hlen, hrdata, rfl, -, -⟩ := h
  have hlt := hname.lt
  obtain ⟨v', hpair, -⟩ := pairAt_of_wordAt hlen
  have hin := lt_of_pairAt hpair
  have hle := hrdata.length_le
  rw [List.length_drop] at hle
  omega

theorem AnswersAt.add_le (h : AnswersAt msg limit p answers) :
    p + 11 * answers.length ≤ msg.length := by
  induction h with
  | none h => exact h
  | more head _ ih =>
    have hhead := head.add_le
    rw [List.length_cons]
    omega

/-- What the decoder reads of the data of a record. -/
theorem exists_rdataIn {record : ResourceRecord} {p1 type' : ℕ}
    (h1 : type' = 1 ↔ record.type = 1) (h5 : type' = 5 ↔ record.type = 5)
    (hrdata : record.rdata <+: msg.drop p1) (haddress : record.type = 1 → record.rdata.length = 4)
    (hin : p1 ≤ msg.length)
    (hname : record.type = 5 → ∃ cname, NameAt.Whole msg 256 p1 cname q) :
    ∃ resp, RdataIn msg p1 type' resp ∧ (resp.type = 1 ↔ record.type = 1) ∧
      (record.type = 1 → resp.ip = addressText record.rdata) := by
  by_cases ht1 : record.type = 1
  · have ht' : type' = 1 := h1.2 ht1
    subst ht'
    have hlen := haddress ht1
    have hle := hrdata.length_le
    rw [List.length_drop, hlen] at hle
    refine ⟨_, .address (by omega), ⟨fun _ => ht1, fun _ => rfl⟩, fun _ => ?_⟩
    rw [← hlen, ← List.prefix_iff_eq_take.1 hrdata]
  · by_cases ht5 : record.type = 5
    · have ht' : type' = 5 := h5.2 ht5
      subst ht'
      obtain ⟨cname, hat, hfit⟩ := hname ht5
      obtain ⟨buf', hcname⟩ := hat.nameIn zeroFrom_emptyName (by omega)
      refine ⟨_, .name hcname, ⟨fun h => ?_, fun h => absurd h ht1⟩, fun h => absurd h ht1⟩
      have hcast : ((5 : ℕ) : ℤ) = 1 := h
      omega
    · have hne : type' ≠ 1 := fun h => ht1 (h1.1 h)
      refine ⟨_, .other hne fun h => ht5 (h5.1 h), ⟨fun h => ?_, fun h => absurd h ht1⟩,
        fun h => absurd h ht1⟩
      have hcast : (type' : ℤ) = 1 := h
      omega

/-- The answers as the decoder reads them. -/
theorem AnswersAt.answersIn (h : AnswersAt msg 256 p answers) (hshort : shortButLast answers) :
    ∃ resps, AnswersIn msg answers.length p resps ∧
      (answerOf resps 0).ips = addresses answers ∧ resps.length = answers.length := by
  induction h with
  | none => exact ⟨[], .none, rfl, rfl⟩
  | @more p q record records head rest ih =>
    obtain ⟨p1, labels, ⟨hname, hfit⟩, htype, hlen, hrdata, rfl, haddress, hcname⟩ := head
    obtain ⟨host, hin⟩ := hname.nameIn zeroFrom_emptyName (by omega)
    obtain ⟨type', htype', -, h1, h5⟩ := pairAt_of_wordAt htype
    obtain ⟨rdlen, hrdlen, heq, -, -⟩ := pairAt_of_wordAt hlen
    have hbound := lt_of_pairAt hrdlen
    obtain ⟨resp, hresp, hresp1, hip⟩ :=
      exists_rdataIn h1 h5 hrdata haddress (by omega) hcname
    -- the cursor of the decoder is right if a record follows, and not looked at otherwise
    obtain ⟨resps, hresps, hips, hcount⟩ : ∃ resps,
        AnswersIn msg records.length (p1 + 10 + rdlen) resps ∧
        (answerOf resps 0).ips = addresses records ∧ resps.length = records.length := by
      cases records with
      | nil => exact ⟨[], .none, rfl, rfl⟩
      | cons r rs =>
        rw [heq (hshort record (by simp))]
        refine ih fun r' hr' => hshort r' ?_
        rw [List.dropLast_cons_of_ne_nil (List.cons_ne_nil _ _)]
        exact List.mem_cons_of_mem _ hr'
    refine ⟨resp :: resps, .more hin htype' hrdlen hresp hresps, ?_, by simp [hcount]⟩
    unfold answerOf addresses at hips ⊢
    simp only at hips ⊢
    rw [List.filterMap_cons, List.filterMap_cons, hips]
    by_cases ht : record.type = 1
    · rw [if_pos (hresp1.2 ht), if_pos ht, hip ht]
    · rw [if_neg fun h => ht (hresp1.1 h), if_neg ht]

/-- A response is a message for the decoder. -/
theorem ResponseAt.messageIn (h : ResponseAt msg 256 question answers)
    (hshort : shortButLast answers) (hne : question ≠ [])
    (hnul : ∀ label ∈ question, ∀ c ∈ label, c ≠ 0) {flags : UInt8} (hflags : msg[3]? = some flags) :
    ∃ resps, MessageIn msg ⟨[nameArray (nameText question)], resps, (flags &&& 0xf).toNat⟩ ∧
      (answerOf resps 0).ips = addresses answers ∧ resps.length = answers.length := by
  obtain ⟨q, ⟨hname, hfit⟩, hanswers⟩ := h.exists_answers
  obtain ⟨resps, hresps, hips, hcount⟩ := hanswers.answersIn hshort
  have hdot := dotted_eq hne
  have htext : (nameText question).length ≤ 254 := by
    rw [hdot, List.length_append] at hfit
    omega
  have hquestion := hname.nameIn_nameText hne hnul htext true
  obtain ⟨one, hone, heq1, -, -⟩ := pairAt_of_wordAt h.one
  obtain ⟨count, hcount', heq2, -, -⟩ := pairAt_of_wordAt h.count
  have hmany := hanswers.add_le
  have hsize := h.size
  rw [heq1 (by omega)] at hone
  rw [heq2 (by omega)] at hcount'
  exact ⟨resps, ⟨flags, 1, answers.length, q + 4, hflags, hone, hcount', .more hquestion .none,
    hresps, rfl⟩, hips, hcount⟩

end Responses

end H2ClientProxy.Dns
